import Mathlib
import Smpp.Proofs.Control.Spelling

/-!
# How control lines are told apart

A line is a message or has one of four faults, and which of them is a matter of its words alone:
whether there is a first word, whether that is a keyword, whether as many words follow as the
keyword has arguments, and which of those is the first that is no value of its argument.

The keywords of a direction with their arguments, and which words say which message, are its
`Vocabulary`. It is written down without the readers: a number is what digits denote, within its
bits. `Vocabulary.Classified` gives the verdict on a row of words. There is one verdict only
(`Classified.unique`), and both readers arrive at it (`ControlMessage.classified_ofWords`,
`WorkerStatus.classified_ofWords`), so that each of the five outcomes has its exact condition
(`Vocabulary.ReadBy`).
-/

namespace Smpp

/-- What a word is to be a value of. -/
inductive ArgumentKind where
  /-- A number that has so many bits at most. -/
  | number (bits : Nat)
  /-- Where a host listens. -/
  | address
  deriving DecidableEq, Repr

/-- A word is a value of its argument. -/
def ArgumentKind.Fits (kind : ArgumentKind) (word : String) : Prop :=
  match kind with
  | .number bits => ∃ n < 2 ^ bits, Numeral.Denotes word.toList n
  | .address => ∃ a, SocketAddress.read word = some a

/-- There are as many words as arguments, and this is the first one, from left to right, that is no
value of its argument. -/
inductive FirstUnfit : List ArgumentKind → List String → String → Prop where
  | here {kind : ArgumentKind} {kinds : List ArgumentKind} {word : String} {args : List String}
      (hunfit : ¬ kind.Fits word) (hlength : args.length = kinds.length) :
      FirstUnfit (kind :: kinds) (word :: args) word
  | later {kind : ArgumentKind} {kinds : List ArgumentKind} {arg word : String}
      {args : List String} (hfit : kind.Fits arg) (hrest : FirstUnfit kinds args word) :
      FirstUnfit (kind :: kinds) (arg :: args) word

namespace FirstUnfit

variable {kinds : List ArgumentKind} {args : List String} {word word' : String}

theorem length_eq (h : FirstUnfit kinds args word) : args.length = kinds.length := by
  induction h with
  | here _ hlength => rw [List.length_cons, List.length_cons, hlength]
  | later _ _ ih => rw [List.length_cons, List.length_cons, ih]

theorem unique (h : FirstUnfit kinds args word) (h' : FirstUnfit kinds args word') :
    word = word' := by
  induction h with
  | here hunfit _ =>
    cases h' with
    | here => rfl
    | later hfit _ => exact absurd hfit hunfit
  | later hfit _ ih =>
    cases h' with
    | here hunfit _ => exact absurd hfit hunfit
    | later _ hrest => exact ih hrest

theorem not_forall₂ (h : FirstUnfit kinds args word) :
    ¬ List.Forall₂ ArgumentKind.Fits kinds args := by
  induction h with
  | here hunfit _ => exact fun hall => hunfit (List.forall₂_cons.1 hall).1
  | later _ _ ih => exact fun hall => ih (List.forall₂_cons.1 hall).2

end FirstUnfit

/-- **The messages of one direction.** -/
structure Vocabulary (α : Type) where
  /-- The arguments of the message that a keyword names. -/
  arguments : String → Option (List ArgumentKind)
  /-- Which words say which message. -/
  Says : List String → α → Prop
  /-- The words of a message are a keyword and values of its arguments. -/
  fits : ∀ ws m, Says ws m → ∃ name args kinds, ws = name :: args ∧
    arguments name = some kinds ∧ List.Forall₂ ArgumentKind.Fits kinds args
  /-- Words say one message at most. -/
  unique : ∀ ws m m', Says ws m → Says ws m' → m = m'

namespace Vocabulary

variable {α : Type} {v : Vocabulary α}

/-- **The verdict on a row of words.** -/
inductive Classified (v : Vocabulary α) : List String → Except ControlError α → Prop where
  /-- There is no word. -/
  | empty : Classified v [] (.error .empty)
  /-- The first word is no keyword. -/
  | unknown {name : String} {args : List String} (hname : v.arguments name = none) :
      Classified v (name :: args) (.error (.unknownMessage name))
  /-- The keyword has another number of arguments. -/
  | arity {name : String} {args : List String} {kinds : List ArgumentKind}
      (hname : v.arguments name = some kinds) (hlength : args.length ≠ kinds.length) :
      Classified v (name :: args) (.error (.arity name kinds.length))
  /-- The number is right, and this argument is the first that is no value of its kind. -/
  | invalid {name word : String} {args : List String} {kinds : List ArgumentKind}
      (hname : v.arguments name = some kinds) (hunfit : FirstUnfit kinds args word) :
      Classified v (name :: args) (.error (.invalidArgument word))
  /-- The words say a message. -/
  | ok {ws : List String} {m : α} (hmeans : v.Says ws m) : Classified v ws (.ok m)

/-- Words that say a message have none of the faults. -/
theorem Classified.eq_ok {ws : List String} {r : Except ControlError α} (h : v.Classified ws r)
    {m : α} (hmeans : v.Says ws m) : r = .ok m := by
  obtain ⟨name, args, kinds, rfl, hkinds, hfits⟩ := v.fits ws m hmeans
  cases h with
  | unknown hname => cases hkinds.symm.trans hname
  | arity hname hlength =>
    cases hkinds.symm.trans hname
    exact absurd hfits.length_eq.symm hlength
  | invalid hname hunfit =>
    cases hkinds.symm.trans hname
    exact absurd hfits hunfit.not_forall₂
  | ok hmeans' => rw [v.unique _ _ _ hmeans' hmeans]

/-- **There is one verdict only.** -/
theorem Classified.unique {ws : List String} {r r' : Except ControlError α}
    (h : v.Classified ws r) (h' : v.Classified ws r') : r = r' := by
  -- A message has none of the faults; two faults differ in the keyword or in the number of words.
  cases h with
  | ok hmeans => exact (h'.eq_ok hmeans).symm
  | empty =>
    cases h' with
    | empty => rfl
    | ok hmeans => exact Classified.empty.eq_ok hmeans
  | unknown hname =>
    cases h' with
    | unknown => rfl
    | arity hname' => cases hname.symm.trans hname'
    | invalid hname' => cases hname.symm.trans hname'
    | ok hmeans => exact (Classified.unknown hname).eq_ok hmeans
  | arity hname hlength =>
    cases h' with
    | unknown hname' => cases hname.symm.trans hname'
    | arity hname' =>
      cases hname.symm.trans hname'
      rfl
    | invalid hname' hunfit =>
      cases hname.symm.trans hname'
      exact absurd hunfit.length_eq hlength
    | ok hmeans => exact (Classified.arity hname hlength).eq_ok hmeans
  | invalid hname hunfit =>
    cases h' with
    | unknown hname' => cases hname.symm.trans hname'
    | arity hname' hlength =>
      cases hname.symm.trans hname'
      exact absurd hunfit.length_eq hlength
    | invalid hname' hunfit' =>
      cases hname.symm.trans hname'
      rw [hunfit.unique hunfit']
    | ok hmeans => exact (Classified.invalid hname hunfit).eq_ok hmeans

/-- **The words of a line have been read** as this vocabulary has them: each outcome has its
condition, and no other fault is found. -/
structure ReadBy (v : Vocabulary α) (ws : List String) (r : Except ControlError α) : Prop where
  /-- There is no word. -/
  empty : r = .error .empty ↔ ws = []
  /-- The first word is no keyword. -/
  unknown : ∀ name, r = .error (.unknownMessage name) ↔
    ∃ args, ws = name :: args ∧ v.arguments name = none
  /-- A keyword is followed by another number of words than it has arguments. -/
  arity : ∀ name expected, r = .error (.arity name expected) ↔
    ∃ args kinds, ws = name :: args ∧ v.arguments name = some kinds ∧
      kinds.length = expected ∧ args.length ≠ expected
  /-- A keyword is followed by the right number of words, and this is the first of them that is no
  value of its argument. -/
  invalid : ∀ word, r = .error (.invalidArgument word) ↔
    ∃ name args kinds, ws = name :: args ∧ v.arguments name = some kinds ∧
      FirstUnfit kinds args word
  /-- The words say a message. -/
  ok : ∀ m, r = .ok m ↔ v.Says ws m
  /-- No line says that the other side is gone. -/
  ne_closed : r ≠ .error .closed

theorem Classified.readBy {ws : List String} {r : Except ControlError α} (h : v.Classified ws r) :
    v.ReadBy ws r where
  -- Each clause is one constructor: that the verdict has its form leaves that constructor alone,
  -- and words of that form have one verdict.
  empty := by
    constructor
    · rintro rfl
      cases h
      rfl
    · rintro rfl
      exact h.unique .empty
  unknown name := by
    constructor
    · rintro rfl
      cases h with
      | unknown hname => exact ⟨_, rfl, hname⟩
    · rintro ⟨args, rfl, hname⟩
      exact h.unique (.unknown hname)
  arity name expected := by
    constructor
    · rintro rfl
      cases h with
      | arity hname hlength => exact ⟨_, _, rfl, hname, rfl, hlength⟩
    · rintro ⟨args, kinds, rfl, hname, rfl, hlength⟩
      exact h.unique (.arity hname hlength)
  invalid word := by
    constructor
    · rintro rfl
      cases h with
      | invalid hname hunfit => exact ⟨_, _, _, rfl, hname, hunfit⟩
    · rintro ⟨name, args, kinds, rfl, hname, hunfit⟩
      exact h.unique (.invalid hname hunfit)
  ok m := by
    constructor
    · rintro rfl
      cases h with
      | ok hmeans => exact hmeans
    · exact fun hmeans => h.unique (.ok hmeans)
  ne_closed := by
    rintro rfl
    cases h

end Vocabulary

/-! ### Arguments -/

namespace Control

/-- A number within its bits is read if and only if a word is one. -/
theorem number_cases (bits : Nat) (s : String) :
    (∃ n < 2 ^ bits, Numeral.read (2 ^ bits - 1) s = .ok n ∧ Numeral.Denotes s.toList n) ∨
      (∃ e, Numeral.read (2 ^ bits - 1) s = .error e) ∧ ¬ (ArgumentKind.number bits).Fits s := by
  have hpos : 0 < 2 ^ bits := Nat.two_pow_pos bits
  cases hread : Numeral.read (2 ^ bits - 1) s with
  | ok n =>
    obtain ⟨hdenotes, hle⟩ := Numeral.read_eq_ok_iff.1 hread
    exact .inl ⟨n, Nat.lt_of_le_pred hpos hle, rfl, hdenotes⟩
  | error e =>
    refine .inr ⟨⟨e, rfl⟩, ?_⟩
    rintro ⟨n, hlt, hdenotes⟩
    cases hread.symm.trans (Numeral.read_eq_ok_iff.2 ⟨hdenotes, Nat.le_pred_of_lt hlt⟩)

theorem word32_cases (s : String) :
    (∃ n, word32 s = .ok n ∧ Numeral.Denotes s.toList n.toNat) ∨
      word32 s = .error (.invalidArgument s) ∧ ¬ (ArgumentKind.number 32).Fits s := by
  unfold word32
  obtain ⟨n, hlt, hread, hdenotes⟩ | ⟨⟨e, hread⟩, hunfit⟩ := number_cases 32 s
  · change Numeral.read 4294967295 s = _ at hread
    rw [hread]
    refine .inl ⟨_, rfl, ?_⟩
    rwa [UInt32.toNat_ofNat_of_lt' hlt]
  · change Numeral.read 4294967295 s = _ at hread
    rw [hread]
    exact .inr ⟨rfl, hunfit⟩

theorem word64_cases (s : String) :
    (∃ n, word64 s = .ok n ∧ Numeral.Denotes s.toList n.toNat) ∨
      word64 s = .error (.invalidArgument s) ∧ ¬ (ArgumentKind.number 64).Fits s := by
  unfold word64
  obtain ⟨n, hlt, hread, hdenotes⟩ | ⟨⟨e, hread⟩, hunfit⟩ := number_cases 64 s
  · change Numeral.read 18446744073709551615 s = _ at hread
    rw [hread]
    refine .inl ⟨_, rfl, ?_⟩
    rwa [UInt64.toNat_ofNat_of_lt' hlt]
  · change Numeral.read 18446744073709551615 s = _ at hread
    rw [hread]
    exact .inr ⟨rfl, hunfit⟩

/-- An address is read if and only if a word is one. -/
theorem address_cases (s : String) :
    (∃ a, address s = .ok a ∧ SocketAddress.read s = some a) ∨
      address s = .error (.invalidArgument s) ∧ ¬ ArgumentKind.address.Fits s := by
  unfold address
  cases hread : SocketAddress.read s with
  | some a => exact .inl ⟨a, rfl, rfl⟩
  | none =>
    refine .inr ⟨rfl, ?_⟩
    rintro ⟨a, ha⟩
    cases hread.symm.trans ha

theorem fits_number32 {s : String} {n : UInt32} (h : Numeral.Denotes s.toList n.toNat) :
    (ArgumentKind.number 32).Fits s :=
  ⟨n.toNat, n.toNat_lt, h⟩

theorem fits_number64 {s : String} {n : UInt64} (h : Numeral.Denotes s.toList n.toNat) :
    (ArgumentKind.number 64).Fits s :=
  ⟨n.toNat, n.toNat_lt, h⟩

theorem word32_of_denotes {s : String} {n : UInt32} (h : Numeral.Denotes s.toList n.toNat) :
    word32 s = .ok n := by
  obtain ⟨m, hread, hdenotes⟩ | ⟨-, hunfit⟩ := word32_cases s
  · rw [hread, UInt32.toNat_inj.1 (hdenotes.unique h)]
  · exact absurd (fits_number32 h) hunfit

theorem word64_of_denotes {s : String} {n : UInt64} (h : Numeral.Denotes s.toList n.toNat) :
    word64 s = .ok n := by
  obtain ⟨m, hread, hdenotes⟩ | ⟨-, hunfit⟩ := word64_cases s
  · rw [hread, UInt64.toNat_inj.1 (hdenotes.unique h)]
  · exact absurd (fits_number64 h) hunfit

end Control

/-! ### Commands -/

namespace ControlMessage

/-- The arguments of commands. -/
def arguments (name : String) : Option (List ArgumentKind) :=
  if name = "drain" ∨ name = "shutdown" then some []
  else if name = "ping" then some [.number 64]
  else none

/-- **What words command.** -/
inductive Says : List String → ControlMessage → Prop where
  | drain : Says ["drain"] .drain
  | shutdown : Says ["shutdown"] .shutdown
  | ping {word : String} {nonce : UInt64} (hnonce : Numeral.Denotes word.toList nonce.toNat) :
      Says ["ping", word] (.ping nonce)

/-- Words are read as the command that they say. -/
theorem ofWords_of_meaning {ws : List String} {m : ControlMessage} (h : Says ws m) :
    ofWords ws = .ok m := by
  cases h with
  | drain => rfl
  | shutdown => rfl
  | ping hnonce =>
    rw [ofWords, Control.word64_of_denotes hnonce]
    rfl

/-- **What a coordinator can say.** -/
def vocabulary : Vocabulary ControlMessage where
  arguments := arguments
  Says := Says
  fits ws m h := by
    cases h with
    | drain => exact ⟨_, _, _, rfl, rfl, .nil⟩
    | shutdown => exact ⟨_, _, _, rfl, rfl, .nil⟩
    | ping hnonce => exact ⟨_, _, _, rfl, rfl, .cons (Control.fits_number64 hnonce) .nil⟩
  unique _ _ _ h h' := Except.ok.inj ((ofWords_of_meaning h).symm.trans (ofWords_of_meaning h'))

/-- **The words of a command are read as the vocabulary has them.** -/
theorem classified_ofWords (ws : List String) : vocabulary.Classified ws (ofWords ws) := by
  unfold ofWords
  split
  · exact .empty
  · exact .ok .drain
  · next args hargs =>
    have hname : vocabulary.arguments "drain" = some [] := rfl
    exact .arity hname fun hlength => hargs (List.length_eq_zero_iff.1 hlength)
  · exact .ok .shutdown
  · next args hargs =>
    have hname : vocabulary.arguments "shutdown" = some [] := rfl
    exact .arity hname fun hlength => hargs (List.length_eq_zero_iff.1 hlength)
  · next word =>
    obtain ⟨nonce, hread, hnonce⟩ | ⟨hread, hunfit⟩ := Control.word64_cases word
    · rw [hread]
      exact .ok (.ping hnonce)
    · rw [hread]
      exact .invalid rfl (.here hunfit rfl)
  · next args hargs =>
    have hname : vocabulary.arguments "ping" = some [.number 64] := rfl
    refine .arity hname fun hlength => ?_
    obtain ⟨word, rfl⟩ := List.length_eq_one_iff.1 hlength
    exact hargs word rfl
  · next name args _ hdrain _ hshutdown _ hping =>
    -- Every keyword has been tried.
    refine .unknown ?_
    change arguments name = none
    rw [arguments, if_neg (not_or.2 ⟨hdrain, hshutdown⟩), if_neg hping]

end ControlMessage

/-! ### Statuses -/

namespace WorkerStatus

/-- The arguments of statuses. -/
def arguments (name : String) : Option (List ArgumentKind) :=
  if name = "ready" then some [.number 32, .address]
  else if name = "pong" then some [.number 64, .number 64]
  else if name = "shutdown-ack" then some [.number 64]
  else none

/-- **What words report.** -/
inductive Says : List String → WorkerStatus → Prop where
  | ready {first second : String} {pid : UInt32} {address : SocketAddress}
      (hpid : Numeral.Denotes first.toList pid.toNat)
      (haddress : SocketAddress.read second = some address) :
      Says ["ready", first, second] (.ready pid address)
  | pong {first second : String} {nonce activeSessions : UInt64}
      (hnonce : Numeral.Denotes first.toList nonce.toNat)
      (hactive : Numeral.Denotes second.toList activeSessions.toNat) :
      Says ["pong", first, second] (.pong nonce activeSessions)
  | shutdownAck {word : String} {closedSessions : UInt64}
      (hclosed : Numeral.Denotes word.toList closedSessions.toNat) :
      Says ["shutdown-ack", word] (.shutdownAck closedSessions)

/-- Words are read as the status that they say. -/
theorem ofWords_of_meaning {ws : List String} {m : WorkerStatus} (h : Says ws m) :
    ofWords ws = .ok m := by
  cases h with
  | ready hpid haddress =>
    rw [ofWords, Control.word32_of_denotes hpid, Control.address, haddress]
    rfl
  | pong hnonce hactive =>
    rw [ofWords, Control.word64_of_denotes hnonce, Control.word64_of_denotes hactive]
    rfl
  | shutdownAck hclosed =>
    rw [ofWords, Control.word64_of_denotes hclosed]
    rfl

/-- **What a worker can say.** -/
def vocabulary : Vocabulary WorkerStatus where
  arguments := arguments
  Says := Says
  fits ws m h := by
    cases h with
    | ready hpid haddress =>
      exact ⟨_, _, _, rfl, rfl, .cons (Control.fits_number32 hpid) (.cons ⟨_, haddress⟩ .nil)⟩
    | pong hnonce hactive =>
      exact ⟨_, _, _, rfl, rfl,
        .cons (Control.fits_number64 hnonce) (.cons (Control.fits_number64 hactive) .nil)⟩
    | shutdownAck hclosed => exact ⟨_, _, _, rfl, rfl, .cons (Control.fits_number64 hclosed) .nil⟩
  unique _ _ _ h h' := Except.ok.inj ((ofWords_of_meaning h).symm.trans (ofWords_of_meaning h'))

/-- A keyword that has two arguments is followed by two words or by another number of them. -/
theorem length_ne_two {args : List String} (h : ∀ a b, args = [a, b] → False) :
    args.length ≠ 2 := by
  intro hlength
  obtain ⟨a, b, rfl⟩ := List.length_eq_two.1 hlength
  exact h a b rfl

/-- **The words of a status are read as the vocabulary has them.** -/
theorem classified_ofWords (ws : List String) : vocabulary.Classified ws (ofWords ws) := by
  unfold ofWords
  split
  · exact .empty
  · next first second =>
    obtain ⟨pid, hread, hpid⟩ | ⟨hread, hunfit⟩ := Control.word32_cases first
    · -- The second argument is only looked at if the first one is a number.
      obtain ⟨a, hread', haddress⟩ | ⟨hread', hunfit⟩ := Control.address_cases second
      · rw [hread, hread']
        exact .ok (.ready hpid haddress)
      · rw [hread, hread']
        exact .invalid rfl (.later (Control.fits_number32 hpid) (.here hunfit rfl))
    · rw [hread]
      exact .invalid rfl (.here hunfit rfl)
  · next args hargs =>
    have hname : vocabulary.arguments "ready" = some [.number 32, .address] := rfl
    exact .arity hname (length_ne_two hargs)
  · next first second =>
    obtain ⟨nonce, hread, hnonce⟩ | ⟨hread, hunfit⟩ := Control.word64_cases first
    · obtain ⟨active, hread', hactive⟩ | ⟨hread', hunfit⟩ := Control.word64_cases second
      · rw [hread, hread']
        exact .ok (.pong hnonce hactive)
      · rw [hread, hread']
        exact .invalid rfl (.later (Control.fits_number64 hnonce) (.here hunfit rfl))
    · rw [hread]
      exact .invalid rfl (.here hunfit rfl)
  · next args hargs =>
    have hname : vocabulary.arguments "pong" = some [.number 64, .number 64] := rfl
    exact .arity hname (length_ne_two hargs)
  · next word =>
    obtain ⟨closed, hread, hclosed⟩ | ⟨hread, hunfit⟩ := Control.word64_cases word
    · rw [hread]
      exact .ok (.shutdownAck hclosed)
    · rw [hread]
      exact .invalid rfl (.here hunfit rfl)
  · next args hargs =>
    have hname : vocabulary.arguments "shutdown-ack" = some [.number 64] := rfl
    refine .arity hname fun hlength => ?_
    obtain ⟨word, rfl⟩ := List.length_eq_one_iff.1 hlength
    exact hargs word rfl
  · next name args _ hready _ hpong _ hack =>
    -- Every keyword has been tried.
    refine .unknown ?_
    change arguments name = none
    rw [arguments, if_neg hready, if_neg hpong, if_neg hack]

end WorkerStatus

/-! ### The whole -/

namespace Control

/-- **Control lines are classified exactly.** Whatever words a line spells, its reading as a command
and its reading as a status are the verdicts on these words: no word, a first word that is no
keyword, a keyword with another number of words behind it than it has arguments, the first argument
that is no value of its kind, or else the message with its arguments in their places. No two of them
apply, and no other fault is found. Every line spells one row of words, which white space in front
of it, behind it and between two words leaves as it is, however much there is of it and of whatever
kind. -/
theorem lines_classified :
    (∀ (line : String) (ws : List String), Text.Spells (ws.map String.toList) line.toList →
      ControlMessage.vocabulary.ReadBy ws (ControlMessage.read line) ∧
        WorkerStatus.vocabulary.ReadBy ws (WorkerStatus.read line)) ∧
    (∀ line : String, ∃! ws : List String, Text.Spells (ws.map String.toList) line.toList) ∧
    (∀ (line front back : String) (ws : List String), Text.IsBlank front.toList →
      Text.IsBlank back.toList → Text.Spells (ws.map String.toList) line.toList →
      Text.Spells (ws.map String.toList) (front ++ line ++ back).toList) ∧
    (∀ (a b white : String) (ws : List String), Text.IsBlank white.toList → white ≠ "" →
      (Text.Spells (ws.map String.toList) (a ++ white ++ b).toList ↔
        Text.Spells (ws.map String.toList) (a ++ " " ++ b).toList)) := by
  refine ⟨fun line ws hspells => ?_, fun line => ?_, fun line front back ws hfront hback hspells =>
    ?_, fun a b white ws hwhite hne => ?_⟩
  · obtain rfl := Text.words_eq_iff.2 hspells
    exact ⟨(ControlMessage.classified_ofWords _).readBy, (WorkerStatus.classified_ofWords _).readBy⟩
  · exact ⟨Text.words line, Text.words_eq_iff.1 rfl, fun ws h => (Text.words_eq_iff.2 h).symm⟩
  · rw [← Text.words_eq_iff] at hspells ⊢
    exact (Text.words_surrounded hfront hback line).trans hspells
  · have hblank : Text.IsBlank (" " : String).toList := by
      rintro c (_ | ⟨_, ⟨⟩⟩)
      decide
    rw [← Text.words_eq_iff, ← Text.words_eq_iff, Text.words_append_white hwhite hne,
      Text.words_append_white hblank (by decide)]

/-- A probe with white space around its words, a plus sign and a zero in front of its nonce is read
as the probe that it is, and to a coordinator it is an unknown status. -/
theorem probe_classified :
    ControlMessage.read "\t ping  +07 " = .ok (.ping 7) ∧
      WorkerStatus.read "\t ping  +07 " = .error (.unknownMessage "ping") := by
  have hspells : Text.Spells (["ping", "+07"].map String.toList) "\t ping  +07 ".toList :=
    Text.words_eq_iff.1 (by decide +kernel)
  have hseven : Numeral.Denotes "+07".toList (7 : UInt64).toNat :=
    ⟨['0', '7'], .inr rfl, List.cons_ne_nil _ _,
      List.forall_mem_cons.2 ⟨by decide, List.forall_mem_singleton.2 (by decide)⟩, rfl⟩
  obtain ⟨hcommand, hstatus⟩ := lines_classified.1 _ _ hspells
  exact ⟨(hcommand.ok _).2 (.ping hseven), (hstatus.unknown "ping").2 ⟨_, rfl, rfl⟩⟩

end Control

end Smpp
