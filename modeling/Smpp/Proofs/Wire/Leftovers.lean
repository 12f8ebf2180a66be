import Smpp.Proofs.Wire.Grammar
import Smpp.Proofs.Wire.Headers

/-!
# What a body leaves over

A body is read to its end, or something of it is left over and nobody looks at it. A submit response
is the only message of which that can be said: its identifier is read, and what follows the zero
octet that ends it is dropped with the frame. All other bodies are used up, since each ends with a
check that nothing follows or with parameters that go on to the end.

`Message.Kind.Forms` says what the octets of a body are apart from any reader, and
`Message.Kind.Accounts` what is left over of a body in these terms. One lemma serves all kinds that
leave nothing (`Accounts.of_all`), one the submit response (`accounts_submitResp`), and
`Frame.body_accounted_for` puts them together for a whole frame.
-/

namespace Smpp

open Smpp.Field (terminated)

/-! ### The form of a body -/

namespace Message.Kind

/-- The mandatory fields of the bodies of a kind, in wire order. -/
def fields : Kind → List MandatoryField
  | bind => Bind.fields
  | bindResp => [⟨"system_id", .text systemIdLimit⟩]
  | submit => Submit.fields
  | submitResp => [⟨"message_id", .text messageIdLimit⟩]
  | unbind | unbindResp | enquireLink | enquireLinkResp | genericNack => []

/-- How the bodies of a kind go on after their fields. -/
def ending : Kind → Body.Ending
  | bindResp | submit => .parameters
  | bind | submitResp | unbind | unbindResp | enquireLink | enquireLinkResp | genericNack =>
    .nothing

/-- Whether a body with fields may be left out, as that of a negative response is. -/
def mayOmit : Kind → Bool
  | bindResp | submitResp => true
  | bind | submit | unbind | unbindResp | enquireLink | enquireLinkResp | genericNack => false

/-- A body is left out, or its octets are those of the mandatory fields and of an ending. -/
def Forms (k : Kind) (ending : Body.Ending) (body : Octets) : Prop :=
  (k.mayOmit = true ∧ body = []) ∨
    ∃ components tail, Body.Splits k.fields ending body components tail

/-- What is left over of a body of a kind. -/
structure Accounts (k : Kind) (body left : Octets) : Prop where
  /-- What has been used is a body of the kind. -/
  used : ∃ part, body = part ++ left ∧ k.Forms k.ending part
  /-- Nothing is left exactly if the whole body is one of the kind. -/
  nothing_iff : left = [] ↔ k.Forms k.ending body
  /-- Parameters are left exactly if every octet belongs to a field or to a parameter. -/
  parameters_iff : Body.Ending.parameters.Takes left ↔ k.Forms .parameters body
  /-- Something is left exactly of a submit response that goes on behind its first zero octet. -/
  left_iff : left ≠ [] ↔ k = submitResp ∧
    ∃ content rest : Octets, 0 ∉ content ∧ rest ≠ [] ∧ body = content ++ 0 :: rest

/-- What may end a body may be parameters, if only none. -/
theorem takes_parameters {ending : Body.Ending} {bs : Octets} (h : ending.Takes bs) :
    Body.Ending.parameters.Takes bs := by
  cases ending with
  | parameters => exact h
  | nothing => exact ⟨[], fun _ hp => absurd hp List.not_mem_nil, h⟩

theorem Forms.parameters {k : Kind} {ending : Body.Ending} {body : Octets}
    (h : k.Forms ending body) : k.Forms .parameters body := by
  obtain homitted | ⟨components, tail, hshapes, hends, hwhole⟩ := h
  · exact .inl homitted
  · exact .inr ⟨components, tail, hshapes, takes_parameters hends, hwhole⟩

/-- A body of a kind of which nothing is left; of the kind that may leave something it is the empty
one. -/
theorem Accounts.of_all {k : Kind} {body : Octets} (h : k.Forms k.ending body)
    (hresp : k = submitResp → body = []) : k.Accounts body [] where
  used := ⟨body, (List.append_nil body).symm, h⟩
  nothing_iff := iff_of_true rfl h
  parameters_iff := iff_of_true (@takes_parameters .nothing [] rfl) h.parameters
  left_iff := by
    refine iff_of_false (fun hleft => hleft rfl) ?_
    rintro ⟨hk, content, rest, -, -, hbody⟩
    rw [hresp hk] at hbody
    exact List.append_ne_nil_of_right_ne_nil content (List.cons_ne_nil 0 rest) hbody.symm

/-! ### Submit responses -/

section SubmitResponse

variable {messageId : String} {left : Octets}

theorem splits_submitResp_iff {ending : Body.Ending} {body : Octets} :
    (∃ components tail, Body.Splits submitResp.fields ending body components tail) ↔
      ∃ text tail, Field.Fits messageIdLimit text ∧ ending.Takes tail ∧
        body = terminated text ++ tail := by
  refine ⟨?_, ?_⟩
  · rintro ⟨_, tail, hshapes, hends, rfl⟩
    -- One field, so one component.
    obtain ⟨component, _, htakes, hnone, rfl⟩ := List.forall₂_cons_left_iff.1 hshapes
    rw [List.forall₂_nil_left_iff] at hnone
    subst hnone
    obtain ⟨text, hfits, rfl⟩ := Field.exists_of_takes_text htakes
    refine ⟨text, tail, hfits, hends, ?_⟩
    rw [List.flatten_singleton]
  · rintro ⟨text, tail, hfits, hends, rfl⟩
    refine ⟨[terminated text], tail, ?_, hends, ?_⟩
    · exact .cons (Field.takes_terminated_iff.2 hfits) .nil
    · rw [List.flatten_singleton]

/-- Behind an identifier the same is left however the identifier is found. -/
theorem terminated_append_inj {text : String} {tail : Octets}
    (h : Field.Fits messageIdLimit messageId) (h' : Field.Fits messageIdLimit text)
    (heq : terminated messageId ++ left = terminated text ++ tail) : left = tail := by
  have hsame : terminated messageId = terminated text :=
    (Field.takes_terminated_iff.2 h).unique (Field.takes_terminated_iff.2 h') heq
  rw [hsame] at heq
  exact List.append_cancel_left heq

/-- An identifier and what follows it have the form of a body exactly if what follows may end
one. -/
theorem forms_submitResp_iff (h : Field.Fits messageIdLimit messageId) {ending : Body.Ending} :
    submitResp.Forms ending (terminated messageId ++ left) ↔ ending.Takes left := by
  unfold Forms
  rw [splits_submitResp_iff]
  refine ⟨?_, ?_⟩
  · rintro (⟨-, hnil⟩ | ⟨text, tail, hfits, hends, heq⟩)
    · exact absurd hnil (Field.terminated_append_ne_nil messageId left)
    · rw [terminated_append_inj h hfits heq]
      exact hends
  · exact fun hends => .inr ⟨messageId, left, h, hends, rfl⟩

/-- **What follows the identifier of a submit response is left over.** -/
theorem accounts_submitResp (h : Field.Fits messageIdLimit messageId) :
    submitResp.Accounts (terminated messageId ++ left) left where
  used := by
    refine ⟨terminated messageId, rfl, ?_⟩
    rw [← List.append_nil (terminated messageId)]
    exact (forms_submitResp_iff h).2 rfl
  nothing_iff := (@forms_submitResp_iff messageId left h .nothing).symm
  parameters_iff := (forms_submitResp_iff h).symm
  left_iff := by
    have hopen : 0 ∉ Utf8.encode messageId := Field.forall_isText_iff.1 h.isText
    have hbody : terminated messageId ++ left = Utf8.encode messageId ++ 0 :: left := by
      rw [terminated, List.append_assoc]
      rfl
    refine ⟨fun hleft => ⟨rfl, _, left, hopen, hleft, hbody⟩, ?_⟩
    rintro ⟨-, content, rest, hcontent, hrest, heq⟩
    -- The first zero octet of the body is the one that ends the identifier.
    rw [hbody] at heq
    have hsame : Utf8.encode messageId = content := append_zero_inj hopen hcontent heq
    rw [hsame] at heq
    have hleft : left = rest := (List.cons.inj (List.append_cancel_left heq)).2
    rw [hleft]
    exact hrest

end SubmitResponse

/-! ### All kinds -/

theorem forms_bindResp {systemId : String} {region : Octets}
    (h : Field.Fits systemIdLimit systemId) (hregion : Body.Ending.parameters.Takes region) :
    bindResp.Forms .parameters (BindResponse.octets systemId region) := by
  refine .inr ⟨[terminated systemId], region, ?_, hregion, ?_⟩
  · exact .cons (Field.takes_terminated_iff.2 h) .nil
  · rw [List.flatten_singleton, BindResponse.octets]

/-- A kind without a body reads none, and has neither fields nor an ending. -/
theorem accounts_of_readNothing {k : Kind} {m m' : Message} {body left : Octets}
    (hfields : k.fields = []) (hending : k.ending = .nothing)
    (h : readNothing k m body = .ok m' left) : k.Accounts body left := by
  cases body with
  | cons b bs => cases h
  | nil =>
    cases h
    refine .of_all (.inr ⟨[], [], ?_, ?_, rfl⟩) (fun _ => rfl)
    · rw [hfields]
      exact .nil
    · rw [hending]
      rfl

/-- **What reading a body leaves over.** -/
theorem accounts_of_readBody {k : Kind} {c : CommandId} {m : Message} {body left : Octets}
    (h : k.readBody c body = .ok m left) : k.Accounts body left := by
  -- Every kind reads to the end of its body, but for the answer to a submit, which leaves what is
  -- behind its identifier.
  cases k with
  | bind =>
    obtain ⟨b, _, hread, hm⟩ := Reader.bind_eq_ok.1 h
    cases hm
    obtain ⟨rfl, components, tail, hsplits, -⟩ := Bind.read_eq_ok_iff_splits.1 hread
    exact .of_all (.inr ⟨components, tail, hsplits⟩) nofun
  | submit =>
    obtain ⟨s, _, hread, hm⟩ := Reader.bind_eq_ok.1 h
    cases hm
    obtain ⟨rfl, components, tail, hsplits, -⟩ := Submit.read_eq_ok_iff_splits.1 hread
    exact .of_all (.inr ⟨components, tail, hsplits⟩) nofun
  | bindResp =>
    obtain ⟨r, _, hread, hm⟩ := Reader.bind_eq_ok.1 h
    cases hm
    obtain ⟨rfl, -, rfl⟩ | ⟨-, hfits, region, hregion, rfl⟩ := BindResponse.read_eq_ok_iff.1 hread
    · exact .of_all (.inl ⟨rfl, rfl⟩) nofun
    · obtain ⟨rfl, row, hrow, rfl, -⟩ := Parameters.read_eq_ok_iff.1 hregion
      exact .of_all (forms_bindResp hfits ⟨row, hrow, rfl⟩) nofun
  | submitResp =>
    obtain ⟨messageId, _, hread, hm⟩ := Reader.bind_eq_ok.1 h
    cases hm
    obtain ⟨rfl, -, rfl⟩ | ⟨hfits, rfl⟩ := SubmitResponse.read_eq_ok_iff.1 hread
    · exact .of_all (.inl ⟨rfl, rfl⟩) (fun _ => rfl)
    · exact accounts_submitResp hfits
  | unbind => exact accounts_of_readNothing rfl rfl h
  | unbindResp => exact accounts_of_readNothing rfl rfl h
  | enquireLink => exact accounts_of_readNothing rfl rfl h
  | enquireLinkResp => exact accounts_of_readNothing rfl rfl h
  | genericNack => exact accounts_of_readNothing rfl rfl h

end Message.Kind

/-! ### Frames -/

namespace Frame

/-- A frame comes of reading a body as one of a kind, which leaves so much over. -/
def ComesOf (f : Frame) (k : Message.Kind) (body left : Octets) : Prop :=
  ∃ (c : CommandId) (status : CommandStatus) (m : Message),
    c.code = f.command ∧ Message.Kind.ofCommand? c = some k ∧ f = .known status f.sequence m ∧
      k.read c body = .ok m left

/-- **What frames leave over.** A frame of a registered command that is decoded comes of its body.
Nothing of the body is left over exactly if all of it are the octets of the mandatory fields and the
ending of the kind, and that is so of all frames but submit responses that go on behind the zero
octet of their identifier. -/
theorem body_accounted_for {largest n : Nat} {bs : Octets} {f : Frame}
    (hdecode : decode largest bs = .ok (f, n)) (hregistered : f.command ∈ registered) :
    ∃ (k : Message.Kind) (left : Octets),
      f.ComesOf k ((bs.take n).drop headerSize) left ∧
        k.Accounts ((bs.take n).drop headerSize) left := by
  obtain ⟨-, hfrom⟩ := readFrom_of_decode hdecode
  have hcommand := hfrom.words.1
  -- From here on the body may be any octets: what is left over is decided by them alone.
  generalize (bs.take n).drop headerSize = body at hfrom ⊢
  obtain ⟨-, hunregistered⟩ | ⟨⟨s, m, rfl⟩, -⟩ := hfrom.unread
  · rw [hcommand] at hregistered
    exact absurd hregistered hunregistered
  cases hfrom with
  | message hcode hstatus hkind hread =>
    refine ⟨_, _, ⟨_, s, m, hcode.trans hcommand.symm, hkind, rfl, ?_⟩,
      Message.Kind.accounts_of_readBody hread⟩
    rw [Message.Kind.read, if_pos hkind]
    exact hread

/-- Two octets behind the identifier of a submit response are left over. -/
theorem body_accounted_for_submitResp :
    let bs : Octets :=
      [0, 0, 0, 21, 0x80, 0, 0, 4, 0, 0, 0, 0, 0, 0, 0, 1, 105, 100, 0, 0xde, 0xad]
    let f : Frame := .submitAccepted 1 "id"
    decode 64 bs = .ok (f, 21) ∧ f.command ∈ registered ∧
      ∃ (k : Message.Kind) (left : Octets),
        f.ComesOf k ((bs.take 21).drop headerSize) left ∧
          k.Accounts ((bs.take 21).drop headerSize) left := by
  intro bs f
  have hdecode : decode 64 bs = .ok (f, 21) := by cbv
  have hregistered : f.command ∈ registered := by decide
  exact ⟨hdecode, hregistered, body_accounted_for hdecode hregistered⟩

/-- A submit response is accepted with octets in it that are part of no field and of no
parameter. -/
theorem submitResp_with_leftover_accepted :
    let body : Octets := [105, 100, 0, 0xde, 0xad]
    let bs : Octets := [0, 0, 0, 21, 0x80, 0, 0, 4, 0, 0, 0, 0, 0, 0, 0, 1] ++ body
    let f : Frame := .submitAccepted 1 "id"
    decode 64 bs = .ok (f, 21) ∧ f.command ∈ registered ∧
      Message.Kind.submitResp.read .submitSmResp body = .ok (.submitResp "id") [0xde, 0xad] ∧
        ¬ Message.Kind.submitResp.Forms .parameters body := by
  intro body bs f
  have hdecode : decode 64 bs = .ok (f, 21) := by cbv
  have hread : Message.Kind.submitResp.read .submitSmResp body =
      .ok (.submitResp "id") [0xde, 0xad] := by cbv
  have hregistered : f.command ∈ registered := by decide
  refine ⟨hdecode, hregistered, hread, ?_⟩
  have hid : SubmitResponse.read body = .ok "id" [0xde, 0xad] := by cbv
  obtain ⟨hnil, -⟩ | ⟨hfits, hbody⟩ := SubmitResponse.read_eq_ok_iff.1 hid
  · exact absurd hnil (List.cons_ne_nil _ _)
  rw [hbody, Message.Kind.forms_submitResp_iff hfits]
  rintro ⟨row, -, hregion⟩
  -- A parameter has four octets before its value, and here are two.
  cases row with
  | nil => cases hregion
  | cons p row =>
    rw [Parameters.region_cons, Parameter.octets_append] at hregion
    cases (List.cons.inj (List.cons.inj hregion).2).2

end Frame

end Smpp
