import Smpp.Proofs.Wire.Lengths

/-!
# A frame is read by itself

A reader of a stream asks for a verdict on what has arrived so far, and acts on it before the rest
is there. That is sound because the verdicts are stable: an impossible length stays impossible, a
whole frame stays whole, and what is incomplete was incomplete before
(`Frame.check_append_of_impossible`, `Frame.check_append_of_ok`, `Frame.check_of_prefix`). And it is
sound because a whole frame is read from its own octets: what follows it is not looked at
(`Frame.decode_append_of_ok`).

A fault of a frame that is there is one of its contents, `WireError.IsOfContents`, and none of its
framing. Faults come from readers, and readers are put together from readers, so the fact is proved
as a property `Reader.FaultsInContents` of readers that sequencing keeps.
-/

namespace Smpp

/-- Whether a fault is one of what a frame holds. The other faults are about where a frame ends and
about which command it is of. -/
def WireError.IsOfContents : WireError → Prop
  | incomplete | invalidLength .. | unknownCommand _ | unexpectedCommand .. => False
  | invalidStatus _ | parameterOverflow .. | truncatedParameter _ | missing _ | invalid ..
  | notText .. => True

/-! ### Readers that only fault on contents -/

namespace Reader

variable {α β : Type}

/-- Whatever a reader is given, its fault is one of contents. -/
def FaultsInContents (x : Reader α) : Prop :=
  ∀ ⦃bs e left⦄, x bs = .error e left → e.IsOfContents

theorem faultsInContents_pure (a : α) : FaultsInContents (pure a) :=
  fun _ _ _ h => (nomatch h)

/-- **Sequencing keeps faults within contents**: the fault of a sequence is that of one of its
parts. -/
theorem FaultsInContents.bind {x : Reader α} {f : α → Reader β} (hx : FaultsInContents x)
    (hf : ∀ a, FaultsInContents (f a)) : FaultsInContents (x >>= f) := by
  intro bs e left h
  change EStateM.bind x f bs = _ at h
  unfold EStateM.bind at h
  split at h
  · next a rest _ => exact hf a h
  · next e' rest hfault =>
    cases h
    exact hx hfault

end Reader

open Reader (FaultsInContents faultsInContents_pure)

namespace Field

theorem faultsInContents_cstring (limit : Nat) (field : String) :
    FaultsInContents (cstring limit field) := by
  intro bs e left h
  simp only [cstring] at h
  split at h
  · -- The text ends, and only what is no text is a fault.
    split at h <;> cases h
    trivial
  · split at h <;> cases h <;> trivial

theorem faultsInContents_octet (field : String) : FaultsInContents (octet field) := by
  intro bs e left h
  cases bs with
  | nil =>
    cases h
    trivial
  | cons b bs => cases h

theorem faultsInContents_coded (α : Type) [Coded α] (field : String) :
    FaultsInContents (coded α field) := by
  intro bs e left h
  unfold coded at h
  split at h
  · next hoctet =>
    cases h
    exact faultsInContents_octet field hoctet
  · split at h <;> cases h
    trivial

end Field

namespace Parameter

theorem faultsInContents_read : FaultsInContents read := by
  intro bs e left h
  unfold read at h
  split at h
  · dsimp only at h
    split at h <;> cases h
    trivial
  · cases h
    trivial

end Parameter

namespace Parameters

/-- The fault of a row of parameters is the fault of one of them. -/
theorem isOfContents_of_readInto {m : Parameters} {bs left : Octets} {e : WireError}
    (h : readInto m bs = .error e left) : e.IsOfContents := by
  -- The induction is on the octets that are left: each parameter takes some of them.
  induction m, bs using readInto.induct with
  | case1 m =>
    unfold readInto at h
    cases h
  | case2 m b bs e' left' hread =>
    unfold readInto at h
    split at h
    · next hfault =>
      cases h
      exact Parameter.faultsInContents_read hfault
    · next hread' =>
      rw [hread] at hread'
      cases hread'
  | case3 m b bs p rest hread ih =>
    unfold readInto at h
    split at h
    · next hfault =>
      rw [hread] at hfault
      cases hfault
    · next hread' =>
      rw [hread] at hread'
      cases hread'
      exact ih h

theorem faultsInContents_read : FaultsInContents read :=
  fun _ _ _ h => isOfContents_of_readInto h

end Parameters

/-! ### Bodies

A body is a sequence of fields, so each of the four follows the order of its reader. -/

namespace Bind

theorem faultsInContents_nothingAfter : FaultsInContents nothingAfter := by
  intro bs e left h
  cases bs with
  | nil => cases h
  | cons b bs =>
    cases h
    trivial

theorem faultsInContents_read (role : BindRole) : FaultsInContents (read role) := by
  unfold read
  refine (Field.faultsInContents_cstring _ _).bind fun _ => ?_
  refine (Field.faultsInContents_cstring _ _).bind fun _ => ?_
  refine (Field.faultsInContents_cstring _ _).bind fun _ => ?_
  refine (Field.faultsInContents_octet _).bind fun _ => ?_
  refine (Field.faultsInContents_coded _ _).bind fun _ => ?_
  refine (Field.faultsInContents_coded _ _).bind fun _ => ?_
  refine (Field.faultsInContents_cstring _ _).bind fun _ => ?_
  exact faultsInContents_nothingAfter.bind fun _ => faultsInContents_pure _

end Bind

namespace BindResponse

theorem faultsInContents_read (role : BindRole) : FaultsInContents (read role) := by
  intro bs e left h
  -- The empty body is read without a fault.
  cases bs with
  | nil => cases h
  | cons b bs =>
    have hbody : FaultsInContents (readBody role) :=
      (Field.faultsInContents_cstring _ _).bind fun _ =>
        Parameters.faultsInContents_read.bind fun _ => faultsInContents_pure _
    exact hbody h

end BindResponse

namespace Submit

theorem faultsInContents_readMessage : FaultsInContents readMessage := by
  intro bs e left h
  unfold readMessage at h
  split at h
  · next hoctet =>
    cases h
    exact Field.faultsInContents_octet _ hoctet
  · dsimp only at h
    split at h
    · cases h
      trivial
    · split at h <;> cases h
      trivial

theorem faultsInContents_readAddress (ton npi text : String) :
    FaultsInContents (readAddress ton npi text) :=
  (Field.faultsInContents_coded _ _).bind fun _ =>
    (Field.faultsInContents_coded _ _).bind fun _ =>
      (Field.faultsInContents_cstring _ _).bind fun _ => faultsInContents_pure _

theorem faultsInContents_read : FaultsInContents read := by
  unfold read
  refine (Field.faultsInContents_cstring _ _).bind fun _ => ?_
  refine (faultsInContents_readAddress _ _ _).bind fun _ => ?_
  refine (faultsInContents_readAddress _ _ _).bind fun _ => ?_
  refine (Field.faultsInContents_octet _).bind fun _ => ?_
  refine (Field.faultsInContents_octet _).bind fun _ => ?_
  refine (Field.faultsInContents_coded _ _).bind fun _ => ?_
  refine (Field.faultsInContents_cstring _ _).bind fun _ => ?_
  refine (Field.faultsInContents_cstring _ _).bind fun _ => ?_
  refine (Field.faultsInContents_octet _).bind fun _ => ?_
  refine (Field.faultsInContents_octet _).bind fun _ => ?_
  refine (Field.faultsInContents_octet _).bind fun _ => ?_
  refine (Field.faultsInContents_octet _).bind fun _ => ?_
  refine faultsInContents_readMessage.bind fun _ => ?_
  exact Parameters.faultsInContents_read.bind fun _ => faultsInContents_pure _

end Submit

namespace SubmitResponse

theorem faultsInContents_read : FaultsInContents read := by
  intro bs e left h
  cases bs with
  | nil => cases h
  | cons b bs => exact Field.faultsInContents_cstring _ _ h

end SubmitResponse

namespace Message.Kind

theorem faultsInContents_readNothing (k : Kind) (m : Message) :
    FaultsInContents (readNothing k m) := by
  intro bs e left h
  cases bs with
  | nil => cases h
  | cons b bs =>
    cases h
    trivial

/-- **The fault of a body is one of its contents**, of whatever kind the body is. -/
theorem faultsInContents_readBody (c : CommandId) (k : Kind) : FaultsInContents (readBody c k) := by
  cases k with
  | bind => exact (Bind.faultsInContents_read _).bind fun _ => faultsInContents_pure _
  | bindResp => exact (BindResponse.faultsInContents_read _).bind fun _ => faultsInContents_pure _
  | submit => exact Submit.faultsInContents_read.bind fun _ => faultsInContents_pure _
  | submitResp => exact SubmitResponse.faultsInContents_read.bind fun _ => faultsInContents_pure _
  | unbind => exact faultsInContents_readNothing _ _
  | unbindResp => exact faultsInContents_readNothing _ _
  | enquireLink => exact faultsInContents_readNothing _ _
  | enquireLinkResp => exact faultsInContents_readNothing _ _
  | genericNack => exact faultsInContents_readNothing _ _

end Message.Kind

namespace Cursor

/-- The octets from a place on, when more octets follow. -/
theorem rest_append (bs more : Octets) (place : Nat) :
    ∃ more', rest ⟨bs ++ more, place⟩ = rest ⟨bs, place⟩ ++ more' :=
  ⟨more.drop (place - bs.length), List.drop_append⟩

theorem rest_prefix {part bs : Octets} (hpart : part <+: bs) (place : Nat) :
    rest ⟨part, place⟩ <+: rest ⟨bs, place⟩ := by
  obtain ⟨more, rfl⟩ := hpart
  obtain ⟨more', hmore⟩ := rest_append part more place
  exact ⟨more', hmore.symm⟩

end Cursor

namespace Frame

/-- The kind of a body is looked up by the command, so no command is unexpected. -/
theorem isOfContents_of_readBody {h : Header} {bs left : Octets} {e : WireError}
    (hbody : readBody h bs = .error e left) : e.IsOfContents := by
  unfold readBody at hbody
  split at hbody
  · cases hbody
  next kind hkind =>
  split at hbody
  · cases hbody
  next e' left' hfault =>
  cases hbody
  unfold Message.Kind.read at hfault
  rw [if_pos hkind] at hfault
  exact Message.Kind.faultsInContents_readBody _ _ hfault

/-! ### Verdicts -/

section Verdicts

variable {largest n : Nat} {bs : Octets}

/-- The word at the front of what is left states the length there. -/
theorem statedLength_rest (c : Cursor) :
    statedLength c.rest = c.word32?.map (·.1.toNat) := by
  unfold statedLength Cursor.word32?
  generalize c.rest = left
  -- There is a word if there are four octets.
  rcases left with _ | ⟨a, _ | ⟨b, _ | ⟨d, _ | ⟨e, left⟩⟩⟩⟩ <;> rfl

/-- Asking for a verdict moves nothing, and the verdict is that on the octets from the place on. -/
theorem checkAt_eq (largest : Nat) (c : Cursor) :
    checkAt largest c = (c, check largest c.rest) := by
  have hstated := statedLength_rest c
  unfold checkAt check
  cases hword : c.word32? with
  | none =>
    rw [hword] at hstated
    rw [hstated]
    rfl
  | some read =>
    obtain ⟨length, behind⟩ := read
    rw [hword] at hstated
    rw [hstated]
    -- The cursor that was moved behind the word has the same octets, so it comes back as it was.
    have hback : { behind with place := c.place } = c := by
      unfold Cursor.word32? at hword
      split at hword <;> cases hword
      rfl
    dsimp only [Option.map_some]
    rw [hback]
    refine congrArg (Prod.mk c) ?_
    unfold checkLength
    split
    · next hbounds =>
      -- A length within its bounds covers the header, so the header need not be asked for.
      have hshort : (c.rest.length < headerSize ∨ c.rest.length < length.toNat) ↔
          (c.rest.take length.toNat).length < length.toNat := by
        rw [List.length_take]
        omega
      simp only [bind, Except.bind, hshort]
    · rfl

/-- A length that cannot be cannot be, whatever follows. -/
theorem check_append_of_impossible {least most : Nat}
    (h : check largest bs = .error (.invalidLength n least most)) (more : Octets) :
    check largest (bs ++ more) = .error (.invalidLength n least most) := by
  have hverdict := checked largest bs
  rw [h] at hverdict
  cases hverdict with
  | impossible hstated hbounds =>
    have hstated' := statedLength_append hstated more
    have hbounds' : ¬ (headerSize ≤ n ∧ n ≤ largest) := by omega
    unfold check checkLength
    rw [hstated']
    dsimp only
    rw [if_neg hbounds']
    rfl

/-- A frame that is whole is whole, whatever follows. -/
theorem check_append_of_ok (h : check largest bs = .ok n) (more : Octets) :
    check largest (bs ++ more) = .ok n := by
  obtain ⟨hstated, hmin, hmax, hlength⟩ := check_eq_ok_iff.1 h
  have hlength' : n ≤ (bs ++ more).length := by
    rw [List.length_append]
    omega
  exact check_eq_ok_iff.2 ⟨statedLength_append hstated more, hmin, hmax, hlength'⟩

/-- What is incomplete was so before its last octets came: a part with a verdict would have passed
it on. -/
theorem check_of_prefix {part : Octets} (hpart : part <+: bs)
    (h : check largest bs = .error .incomplete) : check largest part = .error .incomplete := by
  obtain ⟨more, rfl⟩ := hpart
  have hverdict := checked largest part
  cases hcheck : check largest part with
  | ok n =>
    rw [check_append_of_ok hcheck more] at h
    cases h
  | error e =>
    rw [hcheck] at hverdict
    cases hverdict with
    | unstated => rfl
    | short => rfl
    | impossible =>
      rw [check_append_of_impossible hcheck more] at h
      cases h

end Verdicts

/-! ### Whole frames -/

section Whole

variable {largest n : Nat} {bs : Octets}

/-- **Decoding is parsing the octets that were found to be a frame.** -/
theorem decode_of_ok (h : check largest bs = .ok n) :
    decode largest bs = (parse largest (bs.take n)).map (·, n) := by
  rw [parse_take_of_ok h]
  unfold decode
  rw [h]
  simp only [bind, Except.bind, pure, Except.pure]
  cases ofOctets largest (bs.take n) <;> rfl

/-- What follows a whole frame is not looked at. -/
theorem decode_append_of_ok (h : check largest bs = .ok n) (more : Octets) :
    decode largest (bs ++ more) = decode largest (bs.take n) := by
  have hlength : n ≤ bs.length := (check_eq_ok_iff.1 h).2.2.2
  have hfirst : (bs ++ more).take n = bs.take n := List.take_append_of_le_length hlength
  have halone : (bs.take n).take n = bs.take n := by rw [List.take_take, min_self]
  rw [decode_of_ok (check_append_of_ok h more), decode_of_ok (check_take_of_ok h), hfirst, halone]

/-- **The fault of a frame whose octets are all there is one of its contents.** -/
theorem isOfContents_of_parse {e : WireError} (h : check largest bs = .ok n)
    (hparse : parse largest (bs.take n) = .error e) : e.IsOfContents := by
  obtain ⟨hstated, hmin, hmax, hlength⟩ := check_eq_ok_iff.1 h
  have htake : headerSize ≤ (bs.take n).length := by
    rw [List.length_take]
    omega
  obtain ⟨w, body, hbs⟩ := HeaderWords.exists_eq_encode_append htake
  -- The length that the header states is the one that was judged, so it is not refused again.
  have hw : w.length.toNat = n := by
    have hstated' := (check_eq_ok_iff.1 (check_take_of_ok h)).1
    rw [hbs, HeaderWords.statedLength_encode_append] at hstated'
    exact Option.some.inj hstated'
  have hread : HeaderWords.read (bs.take n) = some (w, body) := by
    rw [hbs, HeaderWords.read_encode_append]
  have hmin' : headerSize ≤ w.length.toNat := by omega
  have hmax' : w.length.toNat ≤ largest := by omega
  rw [parse_take_of_ok h] at hparse
  cases hcommand : CommandId.ofCode? w.command with
  | none =>
    rw [ofOctets_of_meaningless hread (HeaderWords.judge_of_meaningless hmin' hmax' hcommand)]
      at hparse
    cases hparse
  | some c =>
    cases hstatus : CommandStatus.ofCode? w.status with
    | none =>
      rw [ofOctets_of_status hread (HeaderWords.judge_of_status hmin' hmax' hcommand hstatus)]
        at hparse
      cases hparse
      trivial
    | some s =>
      have hjudge := HeaderWords.judge_of_meaning hmin' hmax' hcommand hstatus
      unfold ofOctets at hparse
      rw [hread] at hparse
      dsimp only at hparse
      rw [hjudge] at hparse
      dsimp only at hparse
      split at hparse
      · cases hparse
      · next hbody =>
        cases hparse
        exact isOfContents_of_readBody hbody

end Whole

/-- **Verdicts are stable and decoding is confined to the frame.** A verdict moves no cursor. From
any place on, a length that is impossible and a frame that is whole are so whatever follows, and
what is incomplete was incomplete in every part from the front. A whole frame gives the same frame
or the same fault whatever follows as it does by itself, its length is the one that was found, and a
fault is one of its contents. -/
theorem verdicts_stable_and_decoding_confined (largest : Nat) (bs more : Octets) (place : Nat) :
    (checkAt largest ⟨bs, place⟩).1 = ⟨bs, place⟩ ∧
    (∀ length least most,
      (checkAt largest ⟨bs, place⟩).2 = .error (.invalidLength length least most) →
        (checkAt largest ⟨bs ++ more, place⟩).2 = .error (.invalidLength length least most)) ∧
    (∀ n, (checkAt largest ⟨bs, place⟩).2 = .ok n →
      (checkAt largest ⟨bs ++ more, place⟩).2 = .ok n) ∧
    (∀ part, part <+: bs → (checkAt largest ⟨bs, place⟩).2 = .error .incomplete →
      (checkAt largest ⟨part, place⟩).2 = .error .incomplete) ∧
    (∀ n, check largest bs = .ok n →
      parse largest (bs ++ more) = parse largest (bs.take n) ∧
      decode largest (bs ++ more) = decode largest (bs.take n) ∧
      decode largest (bs ++ more) = (parse largest (bs ++ more)).map (·, n) ∧
      ∀ e, parse largest (bs ++ more) = .error e → e.IsOfContents) := by
  -- A cursor sees the octets from its place on, and what is appended to the buffer is appended to
  -- these, or is beyond a place that is.
  simp only [checkAt_eq]
  refine ⟨trivial, ?_, ?_, ?_, ?_⟩
  · intro length least most h
    obtain ⟨more', hmore⟩ := Cursor.rest_append bs more place
    rw [hmore]
    exact check_append_of_impossible h more'
  · intro n h
    obtain ⟨more', hmore⟩ := Cursor.rest_append bs more place
    rw [hmore]
    exact check_append_of_ok h more'
  · intro part hpart h
    exact check_of_prefix (Cursor.rest_prefix hpart place) h
  · intro n h
    have hdecode := decode_append_of_ok h more
    have hparse : parse largest (bs ++ more) = parse largest (bs.take n) := by
      unfold parse
      rw [hdecode]
    have hfirst : (bs ++ more).take n = bs.take n :=
      List.take_append_of_le_length (check_eq_ok_iff.1 h).2.2.2
    refine ⟨hparse, hdecode, ?_, ?_⟩
    · rw [hparse, decode_of_ok (check_append_of_ok h more), hfirst]
    · intro e he
      rw [hparse] at he
      exact isOfContents_of_parse h he

end Frame

end Smpp
