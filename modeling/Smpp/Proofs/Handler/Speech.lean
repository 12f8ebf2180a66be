import Smpp.Proofs.Wire.RoundTrip
import Smpp.Handler

/-!
# What a server says is understood

A server sends frames of nine shapes, `Frame.FromServer`. Each is short, and what goes out for it is
a frame whatever its texts are: where the frame has no octets, a negative acknowledgement takes its
place. `Frame.onWire` is what the client gets, and `Frame.decode_octetsFor_append` says that
decoding finds it at the front of what was sent.

So a client that decodes what it was sent, frame after frame, gets what the server said and comes
out at the end of the octets, however many frames there are (`Frame.allIn?_octetsFor`).
-/

namespace Smpp

open Smpp.Handler (octetsFor)

/-- The frames that octets are made up of, if they are made up of frames. -/
def Frame.allIn? (largest : Nat) (bs : Octets) : Option (List Frame) :=
  match decodeAll largest 0 bs with
  | (entries, none) => some (entries.map (·.2.2))
  | (_, some _) => none

namespace Frame

/-! ### The frames that a server sends -/

/-- The shapes of the frames that a server sends. -/
inductive FromServer : Frame → Prop where
  | enquireLink (n : UInt32) : FromServer (.enquireLink n)
  | enquireLinkResp (n : UInt32) : FromServer (.enquireLinkResp n)
  | unbind (n : UInt32) : FromServer (.unbind n)
  | unbindResp (status : CommandStatus) (n : UInt32) : FromServer (.unbindResp status n)
  | nack (status : CommandStatus) (n : UInt32) : FromServer (.nack status n)
  | bindAccepted (role : BindRole) (n : UInt32) (systemId : String) :
    FromServer (.bindAccepted role n systemId)
  | bindRefused (role : BindRole) (n : UInt32) (status : CommandStatus) :
    FromServer (.bindRefused role n status)
  | submitAccepted (n : UInt32) (messageId : String) : FromServer (.submitAccepted n messageId)
  | submitRefused (n : UInt32) (status : CommandStatus) : FromServer (.submitRefused n status)

/-- The shapes that name neither the server nor a message. -/
inductive Plain : Frame → Prop where
  | enquireLink (n : UInt32) : Plain (.enquireLink n)
  | enquireLinkResp (n : UInt32) : Plain (.enquireLinkResp n)
  | unbind (n : UInt32) : Plain (.unbind n)
  | unbindResp (status : CommandStatus) (n : UInt32) : Plain (.unbindResp status n)
  | nack (status : CommandStatus) (n : UInt32) : Plain (.nack status n)
  | bindRefused (role : BindRole) (n : UInt32) (status : CommandStatus) :
    Plain (.bindRefused role n status)
  | submitRefused (n : UInt32) (status : CommandStatus) : Plain (.submitRefused n status)

theorem Plain.fromServer {f : Frame} (hf : f.Plain) : f.FromServer := by
  cases hf <;> constructor

/-- No frame of a server is longer: its longest body is the identifier of a message. -/
def longestFromServer : Nat := headerSize + messageIdLimit

/-- The largest length that a header can state. -/
def largestLength : UInt32 := 0xFFFFFFFF

/-- What a client gets for a frame: what the frame carries, or if it cannot be written, that its
number was not acted upon. -/
def onWire (f : Frame) : Frame :=
  match f.encode with
  | .ok _ => f.carried
  | .error _ => .nack .unknownError f.sequence

theorem length_le_of_fits {limit : Nat} {text : String} (h : Field.Fits limit text) :
    (Field.terminated text).length ≤ limit := by
  rw [Field.length_terminated]
  exact h.length_lt

/-- A bind response with few parameters is short. -/
theorem length_bindResp_le {r : BindResponse} {region body : Octets}
    (hregion : r.parameters.encode = .ok region) (h : r.encode = .ok body) :
    body.length ≤ systemIdLimit + region.length := by
  obtain ⟨hfits, region', hregion', rfl⟩ := BindResponse.encode_eq_ok_iff.1 h
  rw [hregion] at hregion'
  cases hregion'
  have hname := length_le_of_fits hfits
  unfold BindResponse.octets
  rw [List.length_append]
  omega

theorem FromServer.length_body_le {f : Frame} {body : Octets} (hf : f.FromServer)
    (h : f.body = .ok body) : body.length ≤ messageIdLimit := by
  -- The longest body is a message identifier as long as the field allows; the response to a bind
  -- has the name of the server in it, which is shorter, and all else has no body.
  have hnothing (hempty : f.body = .ok []) : body.length ≤ messageIdLimit := by
    rw [hempty] at h
    cases h
    exact Nat.zero_le _
  cases hf with
  | enquireLink => exact hnothing rfl
  | enquireLinkResp => exact hnothing rfl
  | unbind => exact hnothing rfl
  | unbindResp => exact hnothing rfl
  | nack => exact hnothing rfl
  | bindAccepted role n systemId =>
    have hregion : (BindResponse.accepted role systemId).parameters.encode =
        .ok [0x02, 0x10, 0x00, 0x01, 0x34] := rfl
    have hlength := length_bindResp_le hregion h
    exact Nat.le_trans hlength (by decide)
  -- By the status: a refusal has no body unless its status is the one of success.
  | bindRefused role n status =>
    by_cases hok : status.isOk = true
    · have hbody : (BindResponse.refused role).encode = .ok body := by
        rw [← h]
        exact (if_pos hok).symm
      have hregion : (BindResponse.refused role).parameters.encode = .ok [] := rfl
      have hlength := length_bindResp_le hregion hbody
      exact Nat.le_trans hlength (by decide)
    · exact hnothing (if_neg hok)
  | submitAccepted n messageId =>
    obtain ⟨hfits, rfl⟩ := SubmitResponse.encode_eq_ok_iff.1 h
    exact length_le_of_fits hfits
  | submitRefused n status =>
    by_cases hok : status.isOk = true
    · have hbody : SubmitResponse.encode "" = .ok body := by
        rw [← h]
        exact (if_pos hok).symm
      obtain ⟨hfits, rfl⟩ := SubmitResponse.encode_eq_ok_iff.1 hbody
      exact length_le_of_fits hfits
    · exact hnothing (if_neg hok)

theorem FromServer.length_encode_le {f : Frame} {bs : Octets} (hf : f.FromServer)
    (h : f.encode = .ok bs) : bs.length ≤ longestFromServer := by
  obtain ⟨body, hbody, rfl⟩ := encode_eq_ok_iff.1 h
  have := hf.length_body_le hbody
  unfold longestFromServer
  rw [List.length_append, HeaderWords.length_encode]
  omega

theorem FromServer.genuine {f : Frame} (hf : f.FromServer) : f.Genuine := by
  cases hf <;> exact trivial

/-! ### What the client gets -/

theorem sequence_carried (f : Frame) : f.carried.sequence = f.sequence := by
  cases f <;> rfl

/-- What the client gets is under the number of the frame. -/
@[simp] theorem sequence_onWire (f : Frame) : f.onWire.sequence = f.sequence := by
  unfold onWire
  split
  · exact sequence_carried f
  · rfl

section Decode

variable {largest : UInt32} (hlargest : longestFromServer ≤ largest.toNat)

include hlargest

/-- **What was sent for a frame decodes to what the client gets of it**, whatever is sent next. -/
theorem decode_octetsFor_append {f : Frame} (hf : f.FromServer) (rest : Octets) :
    decode largest.toNat (octetsFor f ++ rest) = .ok (f.onWire, (octetsFor f).length) := by
  unfold octetsFor onWire
  cases hencode : f.encode with
  | ok bs =>
    exact decode_encode_append hf.genuine hencode
      (Nat.le_trans (hf.length_encode_le hencode) hlargest) rest
  | error e =>
    have hnack : (nack .unknownError f.sequence).encode =
        .ok (((nack .unknownError f.sequence).words 0).encode ++ []) :=
      encode_eq_ok_iff.2 ⟨[], rfl, rfl⟩
    dsimp only
    rw [hnack]
    have hf' : (nack .unknownError f.sequence).FromServer := .nack _ _
    exact decode_encode_append hf'.genuine hnack
      (Nat.le_trans (hf'.length_encode_le hnack) hlargest) rest

omit hlargest in
/-- Reading on behind the first frame. -/
theorem decodeAll_of_decode {largest n place : Nat} {bs : Octets} {f : Frame}
    (h : decode largest bs = .ok (f, n)) :
    decodeAll largest place bs =
      ((place, n, f) :: (decodeAll largest (place + n) (bs.drop n)).1,
        (decodeAll largest (place + n) (bs.drop n)).2) := by
  -- A frame has a header, so there are octets, and it takes up some of them.
  obtain ⟨w, body, rest, hbs, -, hn, -, -⟩ := decode_eq_ok_iff.1 h
  cases bs with
  | nil => cases hbs
  | cons b bs =>
    cases n with
    | zero =>
      unfold headerSize at hn
      omega
    | succ n =>
      rw [decodeAll, h]
      rfl

theorem decodeAll_octetsFor {fs : List Frame} (hfs : ∀ f ∈ fs, f.FromServer) (place : Nat) :
    (decodeAll largest.toNat place (fs.flatMap octetsFor)).1.map (·.2.2) = fs.map onWire ∧
      (decodeAll largest.toNat place (fs.flatMap octetsFor)).2 = none := by
  -- On the frames: the first is at the front, and behind it are the others.
  induction fs generalizing place with
  | nil =>
    rw [List.flatMap_nil, decodeAll]
    exact ⟨rfl, rfl⟩
  | cons f fs ih =>
    rw [List.forall_mem_cons] at hfs
    obtain ⟨hframes, hend⟩ := ih hfs.2 (place + (octetsFor f).length)
    have hfirst := decode_octetsFor_append hlargest hfs.1 (fs.flatMap octetsFor)
    rw [List.flatMap_cons, decodeAll_of_decode hfirst, List.drop_left]
    refine ⟨?_, hend⟩
    rw [List.map_cons, hframes, List.map_cons]

/-- **What a server says is understood**: what was sent for some frames is made up of what the
client gets of each, in order. -/
theorem allIn?_octetsFor {fs : List Frame} (hfs : ∀ f ∈ fs, f.FromServer) :
    allIn? largest.toNat (fs.flatMap octetsFor) = some (fs.map onWire) := by
  obtain ⟨hframes, hend⟩ := decodeAll_octetsFor hlargest hfs 0
  unfold allIn?
  generalize decodeAll largest.toNat 0 (fs.flatMap octetsFor) = read at hframes hend
  obtain ⟨entries, stop⟩ := read
  dsimp only at hframes hend
  rw [hend, ← hframes]

end Decode

end Frame

end Smpp
