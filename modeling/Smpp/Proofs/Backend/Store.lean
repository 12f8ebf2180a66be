import Smpp.Proofs.Backend.Identifiers
import Smpp.Proofs.Handler.Writing

/-!
# What a backend in memory keeps

A backend that keeps messages in memory is handed one message after another, by whichever session.
`MemoryBackend.after` is what they leave behind and `MemoryBackend.decisions` what each of them got
for an answer. A message is accepted exactly if it has a destination, whatever else came before it
(`submit_of_isAddressed`), and one that is not leaves no trace (`submit_of_not_isAddressed`).

The counter holds how many have been accepted (`accepted_after`), so that every number is given once
and an identifier that is given now has not been given before (`ok_notMem_decisions`). The store and
the answers tell of the same identifiers (`messages_after`).

The store has nothing to do with who may bind. A table may name a client twice; the last password
counts, and everyone else hears the same (`authenticate_eq_ok_iff`, `authenticate_eq_error`).
-/

namespace Smpp

/-- Whether a message says where it goes. -/
def Submission.isAddressed (s : Submission) : Bool := s.destination.text ≠ ""

/-- What is kept of a message under an identifier. -/
def Submission.stored (s : Submission) (messageId : String) : StoredMessage :=
  ⟨messageId, s.systemId, s.source, s.destination, s.message⟩

namespace MemoryBackend

/-- The backend after some messages. -/
def after (b : MemoryBackend) (calls : List Submission) : MemoryBackend :=
  calls.foldl (fun b s => (b.submit s).1) b

/-- What a backend decides about some messages. -/
def decisions (b : MemoryBackend) : List Submission → List SubmitResult
  | [] => []
  | s :: calls => (b.submit s).2 :: (b.submit s).1.decisions calls

variable {b : MemoryBackend} {s : Submission} {calls : List Submission}

@[simp] theorem after_nil : b.after [] = b := rfl

@[simp] theorem after_cons : b.after (s :: calls) = (b.submit s).1.after calls := rfl

@[simp] theorem decisions_cons :
    b.decisions (s :: calls) = (b.submit s).2 :: (b.submit s).1.decisions calls := rfl

/-! ### One message -/

/-- **A message without a destination is refused and leaves no trace.** -/
theorem submit_of_not_isAddressed (h : s.isAddressed = false) :
    b.submit s = (b, .error .invalidDestinationAddress) := by
  have hnowhere : s.destination.text = "" := Decidable.not_not.1 (of_decide_eq_false h)
  exact if_pos (String.isEmpty_iff.2 hnowhere)

/-- **A message with a destination is accepted** under the next number, and kept behind the others
with what it says. -/
theorem submit_of_isAddressed (h : s.isAddressed = true) :
    b.submit s =
      ({ b with
          accepted := b.accepted + 1
          messages := b.messages ++ [s.stored (messageId (b.accepted + 1))] },
        .ok (messageId (b.accepted + 1))) := by
  have hsomewhere : s.destination.text ≠ "" := of_decide_eq_true h
  exact if_neg fun hempty => hsomewhere (String.isEmpty_iff.1 hempty)

/-! ### Many messages -/

/-- **The counter** goes on by one for each message with a destination. -/
theorem accepted_after (b : MemoryBackend) (calls : List Submission) :
    (b.after calls).accepted = b.accepted + calls.countP Submission.isAddressed := by
  -- On the messages: what the first of them leaves is what the others find.
  induction calls generalizing b with
  | nil => rfl
  | cons s calls ih =>
    rw [after_cons, ih]
    cases h : s.isAddressed with
    | false =>
      have hnot : ¬ s.isAddressed = true := Bool.eq_false_iff.1 h
      rw [submit_of_not_isAddressed h, List.countP_cons_of_neg hnot]
    | true =>
      rw [submit_of_isAddressed h, List.countP_cons_of_pos h, Nat.add_right_comm, Nat.add_assoc]

/-- Messages do not change who may bind. -/
theorem credentials_after (b : MemoryBackend) (calls : List Submission) :
    (b.after calls).credentials = b.credentials := by
  induction calls generalizing b with
  | nil => rfl
  | cons s calls ih =>
    rw [after_cons, ih]
    cases h : s.isAddressed with
    | false => rw [submit_of_not_isAddressed h]
    | true => rw [submit_of_isAddressed h]

/-- **The store and the answers tell of the same identifiers**: what is kept of a message is kept
under the identifier that it got, and what got none is not kept. -/
theorem messages_after (b : MemoryBackend) (calls : List Submission) :
    (b.after calls).messages = b.messages ++
      (calls.zip (b.decisions calls)).filterMap fun (s, decision) =>
        decision.toOption.map s.stored := by
  induction calls generalizing b with
  | nil => exact (List.append_nil _).symm
  | cons s calls ih =>
    rw [after_cons, ih, decisions_cons, List.zip_cons_cons, List.filterMap_cons]
    cases h : s.isAddressed with
    | false => rw [submit_of_not_isAddressed h]; rfl
    | true =>
      rw [submit_of_isAddressed h]
      exact List.append_assoc ..

/-- An identifier is given for a number that a backend has counted to meanwhile. -/
theorem exists_of_ok_mem_decisions {id : String} (b : MemoryBackend) (calls : List Submission)
    (h : .ok id ∈ b.decisions calls) :
    ∃ n, id = messageId n ∧ b.accepted < n ∧ n ≤ (b.after calls).accepted := by
  -- On the calls, for every beginning: the counter only grows, so the identifiers of the later
  -- calls are between what it is now and what it will be.
  induction calls generalizing b with
  | nil => cases h
  | cons s calls ih =>
    have hgrows : (b.submit s).1.accepted ≤ ((b.submit s).1.after calls).accepted := by
      rw [accepted_after]
      exact Nat.le_add_right ..
    rw [decisions_cons, List.mem_cons] at h
    cases hs : s.isAddressed with
    | false =>
      rw [submit_of_not_isAddressed hs] at h
      obtain h | h := h
      · cases h
      · obtain ⟨n, hid, hlt, hle⟩ := ih _ h
        rw [after_cons, submit_of_not_isAddressed hs]
        exact ⟨n, hid, hlt, hle⟩
    | true =>
      rw [submit_of_isAddressed hs] at h hgrows
      rw [after_cons, submit_of_isAddressed hs]
      obtain h | h := h
      · exact ⟨b.accepted + 1, Except.ok.inj h, Nat.lt_succ_self _, hgrows⟩
      · obtain ⟨n, hid, hlt, hle⟩ := ih _ h
        exact ⟨n, hid, Nat.lt_of_succ_lt hlt, hle⟩

/-- **An identifier that is given now has not been given before.** -/
theorem ok_notMem_decisions (b : MemoryBackend) (calls : List Submission) :
    .ok (messageId ((b.after calls).accepted + 1)) ∉ b.decisions calls := by
  intro h
  obtain ⟨n, hid, -, hle⟩ := exists_of_ok_mem_decisions b calls h
  have heq := messageId_injective hid
  omega

/-! ### Who may bind -/

section Authenticate

variable {table : List (String × String)} {systemId password : String}

/-- **The password of a client** is the last one that the table gives for it. -/
theorem password?_eq_some_iff :
    password? table systemId = some password ↔
      ∃ before rest, table = before ++ (systemId, password) :: rest ∧
        ∀ entry ∈ rest, entry.1 ≠ systemId := by
  unfold password?
  rw [Option.map_eq_some_iff]
  constructor
  · rintro ⟨⟨found, p⟩, hfind, rfl⟩
    obtain ⟨hfound, later, earlier, hreverse, hlater⟩ := List.find?_eq_some_iff_append.1 hfind
    obtain rfl : found = systemId := beq_iff_eq.1 hfound
    refine ⟨earlier.reverse, later.reverse, ?_, fun entry hentry => ?_⟩
    · -- The search goes from the end of the table.
      calc table = table.reverse.reverse := (List.reverse_reverse table).symm
        _ = (later ++ (found, p) :: earlier).reverse := by rw [hreverse]
        _ = earlier.reverse ++ (found, p) :: later.reverse := by
          rw [List.reverse_append, List.reverse_cons, List.append_assoc, List.singleton_append]
    · have hother := hlater entry (List.mem_reverse.1 hentry)
      exact bne_iff_ne.1 hother
  · rintro ⟨before, rest, rfl, hrest⟩
    refine ⟨(systemId, password), List.find?_eq_some_iff_append.2 ⟨beq_self_eq_true _, ?_⟩, rfl⟩
    refine ⟨rest.reverse, before.reverse, ?_, fun entry hentry => ?_⟩
    · rw [List.reverse_append, List.reverse_cons, List.append_assoc, List.singleton_append]
    · exact bne_iff_ne.2 (hrest entry (List.mem_reverse.1 hentry))

/-- **A client may bind** with the last password that the table gives for it. -/
theorem authenticate_eq_ok_iff {c : Credentials} (h : b.credentials = some table) :
    b.authenticate c = .ok () ↔
      ∃ before rest, table = before ++ (c.systemId, c.password) :: rest ∧
        ∀ entry ∈ rest, entry.1 ≠ c.systemId := by
  rw [← password?_eq_some_iff, authenticate, h]
  dsimp only
  split
  · next hpassword => exact iff_of_true rfl hpassword
  · next hpassword => exact iff_of_false (fun h => nomatch h) hpassword

/-- Whoever may not bind hears the same. -/
theorem authenticate_eq_error {c : Credentials} (h : b.authenticate c ≠ .ok ()) :
    b.authenticate c = .error .invalidCredentials := by
  unfold authenticate at h ⊢
  split
  · next hopen =>
    rw [hopen] at h
    exact absurd rfl h
  · next table htable =>
    rw [htable] at h
    exact if_neg fun hpassword => h (if_pos hpassword)

end Authenticate

/-! ### The whole account -/

/-- **What a backend in memory keeps and decides**, for any messages in any order, fewer than its
counter can count:

* a message without a destination is refused, and the backend stays as it was, its counter
  included;
* every other one is accepted. The one that is accepted as number `k` is called by the hexadecimal
  of `k`, with zeros in front up to eight digits. That is not what an earlier one was called by, has
  sixteen octets at most, and can be written in a receipt;
* the store lists what was accepted, in the order in which it came, each with the identifier that
  was given for it;
* where there is a table, a client may bind exactly with the last password that the table gives for
  it, and every other attempt fails alike; where there is none, everyone may. -/
theorem keeps_account (credentials : Option (List (String × String))) (calls : List Submission)
    (hfew : calls.length < 2 ^ 64) :
    let empty : MemoryBackend := { credentials }
    (∀ before s rest, calls = before ++ s :: rest →
      (s.destination.text = "" →
        (empty.after before).submit s = (empty.after before, .error .invalidDestinationAddress)) ∧
      (s.destination.text ≠ "" →
        let k := before.countP (·.destination.text ≠ "") + 1
        let id := String.ofList ((Nat.toDigits 16 k).leftpad 8 '0')
        ((empty.after before).submit s).2 = .ok id ∧
          .ok id ∉ empty.decisions before ∧
          (Utf8.encode id).length ≤ 16 ∧
          ∀ n, (Frame.submitAccepted n id).Writable)) ∧
    (empty.after calls).messages =
      ((calls.zip (empty.decisions calls)).filterMap fun (s, decision) =>
        decision.toOption.map s.stored) ∧
    (∀ table, credentials = some table → ∀ c : Credentials,
      ((empty.after calls).authenticate c = .ok () ↔
        ∃ before rest, table = before ++ (c.systemId, c.password) :: rest ∧
          ∀ entry ∈ rest, entry.1 ≠ c.systemId) ∧
      ((empty.after calls).authenticate c ≠ .ok () →
        (empty.after calls).authenticate c = .error .invalidCredentials)) ∧
    (credentials = none → ∀ c, (empty.after calls).authenticate c = .ok ()) := by
  intro empty
  have hcredentials : (empty.after calls).credentials = credentials := credentials_after empty calls
  refine ⟨?_, messages_after empty calls, fun table htable c => ?_, fun hnone c => ?_⟩
  · intro before s rest hcalls
    refine ⟨fun hnowhere => ?_, fun hsomewhere => ?_⟩
    · exact submit_of_not_isAddressed (decide_eq_false (Decidable.not_not.2 hnowhere))
    · intro k id
      -- The counter holds how many have been accepted before.
      have hcounter : (empty.after before).accepted + 1 = k := by
        rw [accepted_after]
        exact congrArg (· + 1) (Nat.zero_add _)
      have hid : messageId ((empty.after before).accepted + 1) = id := by
        rw [hcounter, messageId_eq]
      have hsmall : (empty.after before).accepted + 1 < 2 ^ 64 := by
        have hle : before.countP (·.destination.text ≠ "") ≤ before.length := List.countP_le_length
        rw [hcalls, List.length_append, List.length_cons] at hfew
        omega
      rw [← hid]
      refine ⟨?_, ok_notMem_decisions empty before, length_encode_messageId_le hsmall, fun n => ?_⟩
      · rw [submit_of_isAddressed (decide_eq_true hsomewhere)]
      · exact Frame.writable_submitAccepted_iff.2 (fits_messageId hsmall)
  · exact ⟨authenticate_eq_ok_iff (hcredentials.trans htable), authenticate_eq_error⟩
  · rw [authenticate, hcredentials, hnone]

/-- Three messages, the second of which does not say where it goes. -/
def threeLetters : List Submission :=
  ["2000", "", "2001"].map fun destination =>
    { systemId := "user1"
      source := ⟨.unknown, .unknown, "1000"⟩
      destination := ⟨.unknown, .unknown, destination⟩
      message := [0x68, 0x69]
      serviceType := ""
      esmClass := 0
      protocolId := 0
      priority := .level0
      scheduledTime := ""
      validityPeriod := ""
      registeredDelivery := 0
      dataCoding := 0
      parameters := .empty }

/-- Two of them are kept, and a client whose password was replaced binds with the new one. -/
theorem keeps_account_threeLetters :
    let empty : MemoryBackend := { credentials := some [("user1", "old"), ("user1", "new")] }
    threeLetters.length < 2 ^ 64 ∧
      empty.decisions threeLetters =
        [.ok "00000001", .error .invalidDestinationAddress, .ok "00000002"] ∧
      (empty.after threeLetters).messages.map StoredMessage.messageId = ["00000001", "00000002"] ∧
      (empty.after threeLetters).authenticate ⟨"user1", "new", "", .v34⟩ = .ok () ∧
      (empty.after threeLetters).authenticate ⟨"user1", "old", "", .v34⟩ =
        .error .invalidCredentials := by
  intro empty
  have hfew : threeLetters.length < 2 ^ 64 := by decide
  obtain ⟨-, hmessages, hbind, -⟩ := keeps_account empty.credentials threeLetters hfew
  have hdecisions : empty.decisions threeLetters =
      [.ok "00000001", .error .invalidDestinationAddress, .ok "00000002"] := by
    cbv
  refine ⟨hfew, hdecisions, ?_, ?_, ?_⟩
  · rw [hmessages, hdecisions]
    rfl
  · exact (hbind _ rfl _).1.2 ⟨[("user1", "old")], [], rfl, fun _ h => absurd h List.not_mem_nil⟩
  · exact (hbind _ rfl _).2 (by decide)

end MemoryBackend

end Smpp
