import Smpp.Proofs.Wire.RoundTrip
import Smpp.Proofs.Wire.Lengths

/-!
# What writing a frame does to a buffer

A frame is written behind octets that are there already: its header first, then its body field by
field and parameter by parameter, and its length last. A field that cannot be written is found when
some of the frame has been written before it. What comes of it is as if the octets of the frame had
been made up beside the buffer: the buffer is as it was, or has exactly `Frame.encode` behind it
(`Frame.encodeAfter_eq`).

What a frame needs in order to be written is the row of its *demands*, in the order in which writing
gets to them. A writer is followed along such a row (`Writer.Writes`): where all demands are met it
puts its octets behind what is there, and otherwise it stops with the fault of the first that is
not. Sequencing appends the rows and the octets (`Writer.Writes.bind`), so each body follows the
order of its writer. `Demand.Judges` says the same of making up octets, whose faults are those of
the same rows.
-/

namespace Smpp

open Smpp.Field (terminated)

/-! ### Demands -/

/-- What is asked of a value for it to be written. -/
inductive Demand where
  /-- A text with its terminator fits a limit, and has no terminator within it. -/
  | text (field : String) (limit : Nat) (text : String)
  /-- The length of a message can be stated, in one octet that is not the last. -/
  | message (text : Octets)
  /-- The length of a parameter's value can be stated, in two octets. -/
  | parameter (p : Parameter)

namespace Demand

/-- Whether a demand is met. -/
def Met : Demand → Prop
  | text _ limit t => t.utf8ByteSize < limit ∧ '\x00' ∉ t.toList
  | message bs => bs.length ≤ 254
  | parameter p => p.value.length ≤ 65535

/-- The fault that reports a demand that is not met. Of a text that is too long and has a terminator
within it, the length is reported. -/
def fault : Demand → WireError
  | text field limit t =>
    .invalid field
      (if limit ≤ t.utf8ByteSize then .tooLong t.utf8ByteSize (limit - 1) else .embeddedNul)
  | message bs => .invalid "short_message" (.tooLong bs.length 254)
  | parameter p => .invalid "tlv" (.parameterTooLong p.tag p.value.length 65535)

/-- A fault is that of the first demand in a row that is not met. -/
def FirstFault (ds : List Demand) (e : WireError) : Prop :=
  ∃ before d after, ds = before ++ d :: after ∧ (∀ x ∈ before, x.Met) ∧ ¬ d.Met ∧ d.fault = e

variable {ds es : List Demand} {e e' : WireError} {d : Demand}

theorem FirstFault.single (h : ¬ d.Met) : FirstFault [d] d.fault :=
  ⟨[], d, [], rfl, fun _ hx => absurd hx List.not_mem_nil, h, rfl⟩

theorem FirstFault.append (h : FirstFault ds e) (es : List Demand) : FirstFault (ds ++ es) e := by
  obtain ⟨before, d, after, rfl, hbefore, hd, he⟩ := h
  exact ⟨before, d, after ++ es, by simp, hbefore, hd, he⟩

theorem FirstFault.behind (h : FirstFault es e) (hds : ∀ d ∈ ds, d.Met) :
    FirstFault (ds ++ es) e := by
  obtain ⟨before, d, after, rfl, hbefore, hd, he⟩ := h
  refine ⟨ds ++ before, d, after, by simp, ?_, hd, he⟩
  intro x hx
  exact (List.mem_append.1 hx).elim (hds x) (hbefore x)

theorem FirstFault.not_met (h : FirstFault ds e) : ¬ ∀ d ∈ ds, d.Met := by
  obtain ⟨before, d, after, rfl, -, hd, -⟩ := h
  exact fun hall => hd (hall d (by simp))

/-- **A row of demands is met, or one of them is the first that is not.** -/
theorem met_or_firstFault (ds : List Demand) :
    (∀ d ∈ ds, d.Met) ∨ ∃ e, FirstFault ds e := by
  induction ds with
  | nil => exact .inl fun _ hd => absurd hd List.not_mem_nil
  | cons d ds ih =>
    by_cases hd : d.Met
    · refine ih.imp (fun h => List.forall_mem_cons.2 ⟨hd, h⟩) ?_
      rintro ⟨e, he⟩
      exact ⟨e, he.behind (List.forall_mem_singleton.2 hd)⟩
    · exact .inr ⟨_, (FirstFault.single hd).append ds⟩

/-- A row has one first fault. -/
theorem FirstFault.unique (h : FirstFault ds e) (h' : FirstFault ds e') : e = e' := by
  obtain ⟨before, d, after, rfl, hbefore, hd, rfl⟩ := h
  obtain ⟨before', d', after', heq, hbefore', hd', rfl⟩ := h'
  -- Neither of the two can stand before the other.
  rcases List.append_eq_append_iff.1 heq with ⟨part, rfl, hpart⟩ | ⟨part, rfl, hpart⟩
  · cases part with
    | nil =>
      cases hpart
      rfl
    | cons x part =>
      cases hpart
      exact absurd (hbefore' d (by simp)) hd
  · cases part with
    | nil =>
      cases hpart
      rfl
    | cons x part =>
      cases hpart
      exact absurd (hbefore d' (by simp)) hd'

end Demand

open Demand (FirstFault)

/-! ### Making up octets -/

namespace Demand

variable {α β : Type} {ds es : List Demand}

/-- What a row of demands decides about something that may fail: it does not if they are met, and
otherwise its fault is the first. -/
structure Judges (x : Except WireError α) (ds : List Demand) : Prop where
  met : ∀ a, x = .ok a → ∀ d ∈ ds, d.Met
  fault : ∀ e, x = .error e → FirstFault ds e

theorem judges_ok (a : α) : Judges (.ok a) [] :=
  ⟨fun _ _ _ hd => absurd hd List.not_mem_nil, fun _ h => (nomatch h)⟩

theorem Judges.bind {x : Except WireError α} {f : α → Except WireError β} (hx : Judges x ds)
    (hf : ∀ a, Judges (f a) es) : Judges (x >>= f) (ds ++ es) := by
  cases x with
  | ok a =>
    have hds := hx.met a rfl
    refine ⟨fun b hb d hd => ?_, fun e he => ?_⟩
    · exact (List.mem_append.1 hd).elim (hds d) ((hf a).met b hb d)
    · exact ((hf a).fault e he).behind hds
  | error e =>
    refine ⟨fun b hb => (nomatch hb), ?_⟩
    rintro _ ⟨⟩
    exact (hx.fault e rfl).append es

theorem Judges.map {x : Except WireError α} (h : Judges x ds) (f : α → β) :
    Judges (do return f (← x)) ds := by
  rw [← List.append_nil ds]
  exact h.bind fun a => judges_ok (f a)

/-- Demands that are met change nothing. -/
theorem Judges.behind {x : Except WireError α} (h : Judges x es) (hds : ∀ d ∈ ds, d.Met) :
    Judges x (ds ++ es) := by
  refine ⟨fun a ha d hd => ?_, fun e he => (h.fault e he).behind hds⟩
  exact (List.mem_append.1 hd).elim (hds d) (h.met a ha d)

theorem Judges.ok_iff {x : Except WireError α} (h : Judges x ds) :
    (∃ a, x = .ok a) ↔ ∀ d ∈ ds, d.Met := by
  cases x with
  | ok a => exact iff_of_true ⟨a, rfl⟩ (h.met a rfl)
  | error e => exact iff_of_false (fun ⟨_, h⟩ => (nomatch h)) (h.fault e rfl).not_met

theorem Judges.error_iff {x : Except WireError α} (h : Judges x ds) {e : WireError} :
    x = .error e ↔ FirstFault ds e := by
  cases x with
  | ok a => exact iff_of_false (fun h => (nomatch h)) fun he => he.not_met (h.met a rfl)
  | error e' =>
    have he' := h.fault e' rfl
    refine ⟨?_, fun he => congrArg Except.error (he'.unique he)⟩
    rintro ⟨⟩
    exact he'

end Demand

open Demand (Judges judges_ok)

namespace Field

theorem judges_ofText (limit : Nat) (field t : String) :
    Judges (ofText limit field t) [.text field limit t] := by
  have hmem : (Utf8.encode t).contains 0 = true ↔ '\x00' ∈ t.toList := by
    rw [List.contains_iff_mem, Utf8.zero_mem_encode_iff]
  unfold ofText
  dsimp only
  rw [Utf8.length_encode]
  -- The demand has its faults in the order in which the writer looks for them.
  split
  · next hlong =>
    refine ⟨fun _ h => (nomatch h), ?_⟩
    rintro _ ⟨⟩
    have hnot : ¬ (Demand.text field limit t).Met := fun h => absurd h.1 (Nat.not_lt.2 hlong)
    have hfault : (Demand.text field limit t).fault =
        .invalid field (.tooLong t.utf8ByteSize (limit - 1)) := by
      rw [Demand.fault, if_pos hlong]
    exact hfault ▸ FirstFault.single hnot
  next hshort =>
  split
  · next hzero =>
    refine ⟨fun _ h => (nomatch h), ?_⟩
    rintro _ ⟨⟩
    have hnot : ¬ (Demand.text field limit t).Met := fun h => h.2 (hmem.1 hzero)
    have hfault : (Demand.text field limit t).fault = .invalid field .embeddedNul := by
      rw [Demand.fault, if_neg hshort]
    exact hfault ▸ FirstFault.single hnot
  · next hzero =>
    refine ⟨fun _ _ => List.forall_mem_singleton.2 ⟨by omega, ?_⟩, fun _ h => (nomatch h)⟩
    exact mt hmem.2 hzero

end Field

theorem Parameter.judges_encode (p : Parameter) : Judges p.encode [.parameter p] := by
  unfold encode
  split
  · next h => exact ⟨fun _ _ => List.forall_mem_singleton.2 h, fun _ h => (nomatch h)⟩
  · next h =>
    refine ⟨fun _ h => (nomatch h), ?_⟩
    rintro _ ⟨⟩
    exact FirstFault.single h

/-! ### Writing octets -/

/-- What a row of demands decides about a writer: it puts its octets behind whatever is there if the
demands are met, and otherwise it stops with the fault of the first that is not, and nothing but
what it wrote itself is behind what was there. -/
structure Writer.Writes (x : Writer Unit) (ds : List Demand) (bs : Octets) : Prop where
  ok : (∀ d ∈ ds, d.Met) → ∀ buffer, x buffer = .ok () (buffer ++ bs)
  fault : ∀ e, FirstFault ds e → ∀ buffer, ∃ part, x buffer = .error e (buffer ++ part)

namespace Writer

variable {x y : Writer Unit} {ds es : List Demand} {bs cs : Octets}

theorem writes_put (bs : Octets) : Writes (put bs) [] bs :=
  ⟨fun _ _ => rfl, fun _ h => absurd (fun _ hd => absurd hd List.not_mem_nil) h.not_met⟩

theorem writes_pure : Writes (pure ()) [] [] := by
  refine ⟨fun _ buffer => ?_, fun _ h => absurd (fun _ hd => absurd hd List.not_mem_nil) h.not_met⟩
  rw [List.append_nil]
  rfl

/-- What is asked of a value before its field is written. -/
theorem writes_require {p : Prop} [Decidable p] {d : Demand} (h : p ↔ d.Met) :
    Writes (require p d.fault) [d] [] := by
  unfold require
  by_cases hd : d.Met
  · refine ⟨fun _ buffer => ?_, fun e he => absurd (List.forall_mem_singleton.2 hd) he.not_met⟩
    rw [if_pos (h.2 hd), List.append_nil]
  · refine ⟨fun hmet => absurd (List.forall_mem_singleton.1 hmet) hd, fun e he buffer => ⟨[], ?_⟩⟩
    rw [if_neg (mt h.1 hd), List.append_nil, he.unique (.single hd)]

/-- What is judged before it is written is written whole or not at all. -/
theorem writes_attempt {field : Except WireError Octets} (h : Judges field ds)
    (hbs : ∀ a, field = .ok a → a = bs) : Writes (attempt field) ds bs := by
  unfold attempt
  cases field with
  | ok a =>
    refine ⟨fun _ buffer => ?_, fun _ he => absurd (h.met a rfl) he.not_met⟩
    rw [hbs a rfl]
  | error e =>
    have hfirst := h.fault e rfl
    refine ⟨fun hmet => absurd hmet hfirst.not_met, fun e' he' buffer => ⟨[], ?_⟩⟩
    rw [hfirst.unique he', List.append_nil]

/-- **Writing one thing after another**: the rows of demands follow one another, and so do the
octets. -/
theorem Writes.bind (hx : Writes x ds bs) (hy : Writes y es cs) :
    Writes (do x; y) (ds ++ es) (bs ++ cs) := by
  refine ⟨fun hmet buffer => ?_, fun e he buffer => ?_⟩
  · rw [List.forall_mem_append] at hmet
    rw [← List.append_assoc]
    exact Reader.bind_eq_ok.2 ⟨(), _, hx.ok hmet.1 buffer, hy.ok hmet.2 _⟩
  · rcases Demand.met_or_firstFault ds with hmet | ⟨e', he'⟩
    · -- The first writer comes to its end, so the fault is one of the second.
      rcases Demand.met_or_firstFault es with hmet' | ⟨e', he'⟩
      · exact absurd (List.forall_mem_append.2 ⟨hmet, hmet'⟩) he.not_met
      · obtain ⟨part, hpart⟩ := hy.fault e' he' (buffer ++ bs)
        refine ⟨bs ++ part, ?_⟩
        rw [he.unique (he'.behind hmet), ← List.append_assoc]
        exact Reader.bind_eq_error.2 (.inr ⟨(), _, hx.ok hmet buffer, hpart⟩)
    · obtain ⟨part, hpart⟩ := hx.fault e' he' buffer
      refine ⟨part, ?_⟩
      rw [he.unique (he'.append es)]
      exact Reader.bind_eq_error.2 (.inl hpart)

end Writer

open Writer (Writes writes_put writes_pure writes_require writes_attempt)

theorem Field.writes_text (limit : Nat) (field t : String) :
    Writes (write limit field t) [.text field limit t] (terminated t) :=
  writes_attempt (judges_ofText limit field t) fun _ h => (ofText_eq_ok_iff.1 h).2

namespace Parameters

/-- The demands of the parameters, in order. -/
def demands (m : Parameters) : List Demand := m.entries.map .parameter

theorem writes_all (ps : List Parameter) :
    Writes (writeAll ps) (ps.map .parameter) (region ps) := by
  induction ps with
  | nil => exact writes_pure
  | cons p ps ih =>
    have hp : Writes p.write [.parameter p] p.octets :=
      writes_attempt p.judges_encode fun _ h => (Parameter.encode_eq_ok_iff.1 h).2
    exact hp.bind ih

/-- What is written of some parameters has the fault of the first of them that does not fit. -/
theorem demands_of_written (ps : List Parameter) :
    ((written ps).2 = none → ∀ d ∈ ps.map Demand.parameter, d.Met) ∧
      ∀ e, (written ps).2 = some e → FirstFault (ps.map .parameter) e := by
  induction ps with
  | nil =>
    refine ⟨fun _ _ hd => absurd hd List.not_mem_nil, fun e he => ?_⟩
    cases he
  | cons p ps ih =>
    rw [written]
    have hp := p.judges_encode
    cases hencode : p.encode with
    | error e =>
      refine ⟨fun hnone => ?_, ?_⟩
      · cases hnone
      · rintro _ ⟨⟩
        exact (hp.fault e hencode).append _
    | ok bs =>
      have hmet := hp.met bs hencode
      refine ⟨fun h => ?_, fun e he => ?_⟩
      · exact List.forall_mem_append.2 ⟨hmet, ih.1 h⟩
      · exact (ih.2 e he).behind hmet

theorem judges_encode (m : Parameters) : Judges m.encode m.demands := by
  have hentries := demands_of_written m.entries
  unfold encode
  split
  · next bs h =>
    rw [h] at hentries
    refine ⟨fun _ _ => hentries.1 rfl, fun e he => ?_⟩
    cases he
  · next bs e h =>
    rw [h] at hentries
    refine ⟨fun a ha => ?_, ?_⟩
    · cases ha
    · rintro _ ⟨⟩
      exact hentries.2 e rfl

end Parameters

/-! ### Bodies

The demands of a body are listed in the order in which its writer gets to them. -/

namespace Bind

/-- The demands of a bind. -/
def demands (b : Bind) : List Demand :=
  [.text "system_id" 16 b.systemId, .text "password" 9 b.password,
    .text "system_type" 13 b.systemType, .text "address_range" 41 b.addressRange]

theorem writes_write (b : Bind) : Writes b.write b.demands (b.octets b.version.octet) := by
  refine (Field.writes_text _ _ _).bind ?_
  refine (Field.writes_text _ _ _).bind ?_
  refine (Field.writes_text _ _ _).bind ?_
  refine (writes_put _).bind ?_
  refine (writes_put _).bind ?_
  refine (writes_put _).bind ?_
  exact Field.writes_text _ _ _

theorem judges_encode (b : Bind) : Judges b.encode b.demands := by
  refine (Field.judges_ofText _ _ _).bind fun _ => ?_
  refine (Field.judges_ofText _ _ _).bind fun _ => ?_
  refine (Field.judges_ofText _ _ _).bind fun _ => ?_
  exact (Field.judges_ofText _ _ _).map _

end Bind

namespace BindResponse

/-- The demands of a bind response. -/
def demands (r : BindResponse) : List Demand :=
  .text "system_id" 16 r.systemId :: r.parameters.demands

theorem writes_write (r : BindResponse) :
    Writes r.write r.demands (octets r.systemId (Parameters.region r.parameters.entries)) :=
  (Field.writes_text _ _ _).bind (Parameters.writes_all _)

theorem judges_encode (r : BindResponse) : Judges r.encode r.demands :=
  (Field.judges_ofText _ _ _).bind fun _ => r.parameters.judges_encode.map _

end BindResponse

namespace Submit

/-- The demands of a submit. The message is looked at before any field. -/
def demands (s : Submit) : List Demand :=
  .message s.shortMessage :: .text "service_type" 6 s.serviceType ::
    .text "source_addr" 21 s.source.text :: .text "destination_addr" 21 s.destination.text ::
    .text "schedule_delivery_time" 17 s.scheduledTime ::
    .text "validity_period" 17 s.validityPeriod :: s.parameters.demands

theorem writes_write (s : Submit) :
    Writes s.write s.demands (s.octets (Parameters.region s.parameters.entries)) := by
  have hmessage : Writes (Writer.require (s.shortMessage.length ≤ longestShortMessage)
      (.invalid "short_message" (.tooLong s.shortMessage.length longestShortMessage)))
      [.message s.shortMessage] [] :=
    writes_require (d := .message s.shortMessage) Iff.rfl
  refine hmessage.bind ?_
  refine (Field.writes_text _ _ _).bind ?_
  refine (writes_put _).bind ((writes_put _).bind ?_)
  refine (Field.writes_text _ _ _).bind ?_
  refine (writes_put _).bind ((writes_put _).bind ?_)
  refine (Field.writes_text _ _ _).bind ?_
  refine (writes_put _).bind ((writes_put _).bind ((writes_put _).bind ?_))
  refine (Field.writes_text _ _ _).bind ?_
  refine (Field.writes_text _ _ _).bind ?_
  refine (writes_put _).bind ((writes_put _).bind ((writes_put _).bind ((writes_put _).bind ?_)))
  refine (writes_put _).bind ((writes_put _).bind ?_)
  exact Parameters.writes_all _

theorem judges_encode (s : Submit) : Judges s.encode s.demands := by
  unfold encode
  split
  · next hlong =>
    have hnot : ¬ (Demand.message s.shortMessage).Met := Nat.not_le.2 hlong
    refine ⟨fun _ h => (nomatch h), ?_⟩
    rintro _ ⟨⟩
    exact (FirstFault.single hnot).append _
  · next hshort =>
    have hmet : ∀ d ∈ [Demand.message s.shortMessage], d.Met :=
      List.forall_mem_singleton.2 (Nat.not_lt.1 hshort)
    refine Judges.behind ?_ hmet
    refine (Field.judges_ofText _ _ _).bind fun _ => ?_
    refine (Field.judges_ofText _ _ _).bind fun _ => ?_
    refine (Field.judges_ofText _ _ _).bind fun _ => ?_
    refine (Field.judges_ofText _ _ _).bind fun _ => ?_
    refine (Field.judges_ofText _ _ _).bind fun _ => ?_
    exact s.parameters.judges_encode.map _

end Submit

namespace Message

/-- The demands of a message that goes out with a status. A negative response has none, whatever it
holds. -/
def demands (status : CommandStatus) : Message → List Demand
  | bind b => b.demands
  | bindResp r => if status.isOk then r.demands else []
  | submit s => s.demands
  | submitResp messageId => if status.isOk then [.text "message_id" 65 messageId] else []
  | unbind | unbindResp | enquireLink | enquireLinkResp | genericNack => []

/-- The octets of the body of a message whose demands are met. -/
def octets (status : CommandStatus) : Message → Octets
  | bind b => b.octets b.version.octet
  | bindResp r =>
    if status.isOk then BindResponse.octets r.systemId (Parameters.region r.parameters.entries)
    else []
  | submit s => s.octets (Parameters.region s.parameters.entries)
  | submitResp messageId => if status.isOk then terminated messageId else []
  | unbind | unbindResp | enquireLink | enquireLinkResp | genericNack => []

theorem writes_write (status : CommandStatus) (m : Message) :
    Writes (m.write status) (m.demands status) (m.octets status) := by
  cases m with
  | bind b => exact b.writes_write
  | bindResp r =>
    simp only [write, demands, octets]
    split
    · exact r.writes_write
    · exact writes_pure
  | submit s => exact s.writes_write
  | submitResp messageId =>
    simp only [write, demands, octets]
    split
    · exact Field.writes_text _ _ _
    · exact writes_pure
  | _ => exact writes_pure

theorem judges_encode (status : CommandStatus) (m : Message) :
    Judges (m.encode status) (m.demands status) := by
  cases m with
  | bind b => exact b.judges_encode
  | bindResp r =>
    simp only [encode, demands]
    split
    · exact r.judges_encode
    · exact judges_ok _
  | submit s => exact s.judges_encode
  | submitResp messageId =>
    simp only [encode, demands]
    split
    · exact Field.judges_ofText _ _ _
    · exact judges_ok _
  | _ => exact judges_ok _

/-- The octets that are made up of a body are those that are written. -/
theorem eq_octets_of_encode {status : CommandStatus} {m : Message} {body : Octets}
    (h : m.encode status = .ok body) : body = m.octets status := by
  -- A response is written out only if its status is the one of success, on both sides.
  cases m with
  | bind b => exact (Bind.encode_eq_ok_iff.1 h).2
  | bindResp r =>
    simp only [encode] at h
    simp only [octets]
    split at h
    · next hok =>
      obtain ⟨-, region, hregion, rfl⟩ := BindResponse.encode_eq_ok_iff.1 h
      rw [if_pos hok, (Parameters.encode_eq_ok_iff.1 hregion).2]
    · next hnegative =>
      cases h
      rw [if_neg hnegative]
  | submit s =>
    obtain ⟨-, region, hregion, rfl⟩ := Submit.encode_eq_ok_iff.1 h
    rw [(Parameters.encode_eq_ok_iff.1 hregion).2]
    rfl
  | submitResp messageId =>
    simp only [encode] at h
    simp only [octets]
    split at h
    · next hok =>
      rw [if_pos hok]
      exact (SubmitResponse.encode_eq_ok_iff.1 h).2
    · next hnegative =>
      cases h
      rw [if_neg hnegative]
  | _ =>
    cases h
    rfl

end Message

/-! ### Frames -/

namespace Frame

/-- The demands of a frame. A body that is kept as it came has none. -/
def demands : Frame → List Demand
  | known status _ m => m.demands status
  | unknown .. => []

/-- The length goes over the first word of the header, and over nothing else. -/
theorem fillLength_append (buffer body : Octets) (command status sequence : UInt32) :
    fillLength buffer.length
        (buffer ++ HeaderWords.encode ⟨0, command, status, sequence⟩ ++ body) =
      buffer ++ (HeaderWords.encode
        ⟨UInt32.ofNat (headerSize + body.length), command, status, sequence⟩ ++ body) := by
  have hlength : (buffer ++ (HeaderWords.encode ⟨0, command, status, sequence⟩ ++ body)).length -
      buffer.length = headerSize + body.length := by
    simp only [List.length_append, HeaderWords.length_encode]
    omega
  unfold fillLength
  rw [List.append_assoc buffer, hlength, List.take_left, List.drop_length_add_append]
  -- Four octets of the header are gone, and the length has as many.
  simp only [HeaderWords.encode, List.append_assoc]
  rfl

theorem judges_encode (f : Frame) : Judges f.encode f.demands := by
  have hbody : Judges f.body f.demands := by
    cases f with
    | known status sequence m => exact m.judges_encode status
    | unknown command status sequence body => exact judges_ok _
  exact hbody.map _

/-- What can be made up is written behind what is there. -/
theorem write_of_ok {f : Frame} {bs : Octets} (h : f.encode = .ok bs) (buffer : Octets) :
    f.write buffer = .ok () (buffer ++ bs) := by
  obtain ⟨body, hbody, rfl⟩ := encode_eq_ok_iff.1 h
  cases f with
  | known status sequence m =>
    have hmet := (m.judges_encode status).met body hbody
    obtain rfl := Message.eq_octets_of_encode hbody
    simp only [write, (m.writes_write status).ok hmet]
    rw [fillLength_append]
    rfl
  | unknown command status sequence octets =>
    cases hbody
    have hwrites : Writes (write (unknown command status sequence body)) []
        ((words (unknown command status sequence body) body.length).encode ++ body) :=
      (writes_put _).bind (writes_put _)
    exact hwrites.ok (fun _ hd => absurd hd List.not_mem_nil) buffer

/-- What cannot be made up is taken back. -/
theorem write_of_error {f : Frame} {e : WireError} (h : f.encode = .error e) (buffer : Octets) :
    f.write buffer = .error e buffer := by
  cases f with
  | known status sequence m =>
    have hfirst : FirstFault (m.demands status) e :=
      (judges_encode (known status sequence m)).fault e h
    obtain ⟨part, hpart⟩ := (m.writes_write status).fault e hfirst
      (buffer ++ HeaderWords.encode ⟨0, m.command.code, status.code, sequence⟩)
    simp only [write, hpart]
    rw [List.append_assoc, List.take_left]
  | unknown command status sequence body => cases h

/-- **A frame is written behind what is there as it is made up beside it, or not at all.** -/
theorem encodeAfter_eq (buffer : Octets) (f : Frame) :
    f.encodeAfter buffer =
      match f.encode with
      | .ok bs => (buffer ++ bs, .ok ())
      | .error e => (buffer, .error e) := by
  unfold encodeAfter
  cases h : f.encode with
  | ok bs => rw [write_of_ok h]
  | error e => rw [write_of_error h]

/-- The words of a header stand at the front of what is written of a frame, and the length is that
of all of it, as far as a word can state it. -/
theorem wordAt_of_encode {f : Frame} {bs : Octets} (h : f.encode = .ok bs) :
    headerSize ≤ bs.length ∧ (bs.wordAt 0).toNat = bs.length % 2 ^ 32 ∧ bs.wordAt 4 = f.command ∧
      bs.wordAt 8 = f.status ∧ bs.wordAt 12 = f.sequence := by
  obtain ⟨body, -, rfl⟩ := encode_eq_ok_iff.1 h
  have hwords :=
    HeaderWords.words_of_read (HeaderWords.read_encode_append (f.words body.length) body)
  have hlength : ((f.words body.length).encode ++ body).length = headerSize + body.length := by
    rw [List.length_append, HeaderWords.length_encode]
  injection hwords with hlength' hcommand hstatus hsequence
  rw [hlength, ← hlength', ← hcommand, ← hstatus, ← hsequence]
  exact ⟨Nat.le_add_right _ _, UInt32.toNat_ofNat', rfl, rfl, rfl⟩

/-- **Writing a frame is all or nothing, and does not depend on what is there.** It succeeds exactly
if all demands of the frame are met, and then the octets that the frame is made up of are behind
what was there, headed by their number and by what the header of the frame says. Otherwise
everything is as it was, and the fault is that of the first demand that is not met. -/
theorem write_all_or_nothing (buffer : Octets) (f : Frame) :
    ((f.encodeAfter buffer).2 = .ok () ↔ ∀ d ∈ f.demands, d.Met) ∧
    (∀ written, f.encodeAfter buffer = (written, .ok ()) ↔
      ∃ bs, f.encode = .ok bs ∧ written = buffer ++ bs) ∧
    (∀ written e, f.encodeAfter buffer = (written, .error e) ↔
      written = buffer ∧ FirstFault f.demands e) ∧
    (∀ bs, f.encode = .ok bs →
      headerSize ≤ bs.length ∧ (bs.wordAt 0).toNat = bs.length % 2 ^ 32 ∧
        bs.wordAt 4 = f.command ∧ bs.wordAt 8 = f.status ∧ bs.wordAt 12 = f.sequence) := by
  rw [encodeAfter_eq]
  refine ⟨?_, fun written => ?_, fun written e => ?_, fun bs h => wordAt_of_encode h⟩
  · rw [← f.judges_encode.ok_iff]
    cases f.encode <;> simp
  · cases f.encode <;> simp [eq_comm]
  · rw [← f.judges_encode.error_iff]
    cases f.encode <;> simp [eq_comm]

end Frame

end Smpp
