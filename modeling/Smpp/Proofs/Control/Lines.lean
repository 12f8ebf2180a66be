import Mathlib
import Smpp.Control
import Smpp.Proofs.Control.Addresses

/-!
# Control lines read back

Nothing is lost between a coordinator and a worker: `Control.lines_read_back` says that a row of
messages, written one a line, split into lines and read, is that row again, in both directions.

A line consists of words with one blank between them, and a word holds no white space
(`IsPlain`). So the line feeds of a text are those between its lines (`readLines_ofLines`), and the
blanks of a line are those between its words (`words_append_blank`); what is left is to read the
words, number by number and address by address. A reader may trim a line first or not, since only
the words count (`words_trim`).
-/

namespace Smpp

namespace Text

/-! ### Words -/

/-- No white space is among some characters. -/
def IsPlain (cs : List Char) : Prop := ∀ c ∈ cs, isWhiteSpace c = false

theorem IsPlain.append {cs ds : List Char} (hcs : IsPlain cs) (hds : IsPlain ds) :
    IsPlain (cs ++ ds) := by
  intro c hc
  exact (List.mem_append.1 hc).elim (hcs c) (hds c)

theorem IsPlain.cons {c : Char} {cs : List Char} (hc : isWhiteSpace c = false) (hcs : IsPlain cs) :
    IsPlain (c :: cs) :=
  List.forall_mem_cons.2 ⟨hc, hcs⟩

theorem isPlain_of_all {s : String} (h : (s.toList.all fun c => !isWhiteSpace c) = true) :
    IsPlain s.toList := by
  intro c hc
  exact Bool.eq_false_of_not_eq_true' (List.all_eq_true.1 h c hc)

/-- Plain characters go on with the word that has begun. -/
theorem wordsAfter_append {cs : List Char} (h : IsPlain cs) (word rest : List Char) :
    wordsAfter word (cs ++ rest) = wordsAfter (cs.reverse ++ word) rest := by
  induction cs generalizing word with
  | nil => rfl
  | cons c cs ih =>
    obtain ⟨hc, hcs⟩ := List.forall_mem_cons.1 h
    rw [List.cons_append, wordsAfter, hc, if_neg Bool.false_ne_true, ih hcs, List.reverse_cons,
      List.append_assoc]
    rfl

/-- A word on its own is the only word. -/
theorem words_of_isPlain {word : String} (h : IsPlain word.toList) (hne : word ≠ "") :
    words word = [word] := by
  have hchars : word.toList ≠ [] := fun hnil => hne (String.toList_eq_nil_iff.1 hnil)
  have hafter := wordsAfter_append h [] []
  rw [List.append_nil, List.append_nil] at hafter
  rw [words, hafter, wordsAfter, List.isEmpty_reverse, List.isEmpty_eq_false_iff.2 hchars,
    if_neg Bool.false_ne_true, List.reverse_reverse, List.map_singleton, String.ofList_toList]

/-- **A blank ends a word.** -/
theorem words_append_blank {word : String} (h : IsPlain word.toList) (hne : word ≠ "")
    (line : String) : words (word ++ " " ++ line) = word :: words line := by
  have hchars : word.toList ≠ [] := fun hnil => hne (String.toList_eq_nil_iff.1 hnil)
  have hblank : (" " : String).toList = [' '] := rfl
  rw [words, String.toList_append, String.toList_append, hblank, List.append_assoc,
    wordsAfter_append h, List.append_nil, List.singleton_append, wordsAfter,
    if_pos (show isWhiteSpace ' ' = true by decide), List.isEmpty_reverse,
    List.isEmpty_eq_false_iff.2 hchars, if_neg Bool.false_ne_true, List.reverse_reverse,
    List.map_cons, String.ofList_toList]
  rfl

theorem words_pair {a b : String} (ha : IsPlain a.toList) (hane : a ≠ "") (hb : IsPlain b.toList)
    (hbne : b ≠ "") : words (a ++ " " ++ b) = [a, b] := by
  rw [words_append_blank ha hane, words_of_isPlain hb hbne]

theorem words_triple {a b c : String} (ha : IsPlain a.toList) (hane : a ≠ "")
    (hb : IsPlain b.toList) (hbne : b ≠ "") (hc : IsPlain c.toList) (hcne : c ≠ "") :
    words (a ++ " " ++ b ++ " " ++ c) = [a, b, c] := by
  have hassoc : a ++ " " ++ b ++ " " ++ c = a ++ " " ++ (b ++ " " ++ c) := by
    simp only [String.append_assoc]
  rw [hassoc, words_append_blank ha hane, words_pair hb hbne hc hcne]

/-- White space in front of a line is no part of its words. -/
theorem wordsAfter_dropWhile (cs : List Char) :
    wordsAfter [] (cs.dropWhile isWhiteSpace) = wordsAfter [] cs := by
  induction cs with
  | nil => rfl
  | cons c cs ih =>
    rw [List.dropWhile_cons]
    split
    · next hc =>
      rw [ih, wordsAfter, if_pos hc]
      rfl
    · rfl

/-- White space behind a line is no part of its words. -/
theorem wordsAfter_append_white (word cs : List Char) {white : List Char}
    (h : ∀ c ∈ white, isWhiteSpace c = true) :
    wordsAfter word (cs ++ white) = wordsAfter word cs := by
  -- White space alone ends the word that has begun, as the end of the line does.
  have hwhite : ∀ word, wordsAfter word white = wordsAfter word [] := by
    induction white with
    | nil => exact fun _ => rfl
    | cons c white ih =>
      obtain ⟨hc, hrest⟩ := List.forall_mem_cons.1 h
      intro word
      rw [wordsAfter, wordsAfter, if_pos hc, ih hrest]
      rfl
  induction cs generalizing word with
  | nil => exact hwhite word
  | cons c cs ih =>
    rw [List.cons_append, wordsAfter, wordsAfter, ih, ih]

/-- **A trimmed line has the same words.** -/
theorem words_trim (s : String) : words (trim s) = words s := by
  -- What is trimmed off the end is the front of the line read from behind.
  have hsplit : s.toList.dropWhile isWhiteSpace =
      ((s.toList.dropWhile isWhiteSpace).reverse.dropWhile isWhiteSpace).reverse ++
        ((s.toList.dropWhile isWhiteSpace).reverse.takeWhile isWhiteSpace).reverse := by
    rw [← List.reverse_append, List.takeWhile_append_dropWhile, List.reverse_reverse]
  have hwhite : ∀ c ∈ ((s.toList.dropWhile isWhiteSpace).reverse.takeWhile isWhiteSpace).reverse,
      isWhiteSpace c = true := by
    intro c hc
    have hmem := List.mem_takeWhile_imp (List.mem_reverse.1 hc)
    exact hmem
  unfold words trim
  rw [String.toList_ofList, ← wordsAfter_append_white [] _ hwhite, ← hsplit, wordsAfter_dropWhile]

/-! ### Lines -/

/-- Some characters can be those of a line: none of them ends it, and the last one is not lost
together with the line feed. -/
def IsLine (cs : List Char) : Prop := '\n' ∉ cs ∧ cs.getLast? ≠ some '\r'

/-- Blanks are the only white space among some characters. -/
def IsSpaced (cs : List Char) : Prop := ∀ c ∈ cs, isWhiteSpace c = false ∨ c = ' '

theorem IsPlain.isSpaced {cs : List Char} (h : IsPlain cs) : IsSpaced cs :=
  fun c hc => .inl (h c hc)

theorem IsSpaced.append_blank {s t : String} (hs : IsSpaced s.toList) (ht : IsPlain t.toList) :
    IsSpaced (s ++ " " ++ t).toList := by
  intro c hc
  rw [String.toList_append, String.toList_append] at hc
  obtain hc | hc := List.mem_append.1 hc
  · obtain hc | hc := List.mem_append.1 hc
    · exact hs c hc
    · exact .inr (List.mem_singleton.1 hc)
  · exact .inl (ht c hc)

/-- Words with blanks between them make a line. -/
theorem IsSpaced.isLine {cs : List Char} (h : IsSpaced cs) : IsLine cs := by
  constructor
  · intro hmem
    exact absurd (h _ hmem) (by decide)
  · intro hlast
    exact absurd (h _ (List.mem_of_getLast? hlast)) (by decide)

theorem linesToEnd_append {cs : List Char} (h : '\n' ∉ cs) (line rest : List Char) :
    linesToEnd line (cs ++ '\n' :: rest) =
      (dropReturn (cs.reverse ++ line)).reverse :: linesToEnd [] rest := by
  -- The characters of the line are gathered the wrong way round, as they come.
  induction cs generalizing line with
  | nil => rfl
  | cons c cs ih =>
    rw [List.mem_cons, not_or] at h
    rw [List.cons_append, linesToEnd, ih h.2, List.reverse_cons, List.append_assoc]
    · rfl
    · exact fun hc => h.1 hc.symm

theorem dropReturn_of_head? {cs : List Char} (h : cs.head? ≠ some '\r') : dropReturn cs = cs := by
  unfold dropReturn
  split
  · exact absurd rfl h
  · rfl

/-- **Lines are read back**: a text of lines is split into those lines. -/
theorem readLines_ofLines {ls : List String} (h : ∀ l ∈ ls, IsLine l.toList) :
    readLines (ofLines ls) = ls := by
  induction ls with
  | nil => rfl
  | cons l ls ih =>
    obtain ⟨⟨hfeed, hreturn⟩, hrest⟩ := List.forall_mem_cons.1 h
    have hlist : (ofLines (l :: ls)).toList = l.toList ++ '\n' :: (ofLines ls).toList := by
      rw [ofLines, String.toList_append, String.toList_append, List.append_assoc]
      rfl
    have hline : (dropReturn (l.toList.reverse ++ [])).reverse = l.toList := by
      rw [List.append_nil, dropReturn_of_head?, List.reverse_reverse]
      rw [List.head?_reverse]
      exact hreturn
    rw [readLines, hlist, linesToEnd_append hfeed, hline, List.map_cons, String.ofList_toList]
    exact congrArg (l :: ·) (ih hrest)

/-- **Nothing is lost in a text of lines**, if each line is read as what it was written for. -/
theorem map_readLines {α ε : Type} {line : α → String} {read : String → Except ε α}
    (hline : ∀ a, IsLine (line a).toList) (hread : ∀ a, read (line a) = .ok a) (as : List α) :
    (readLines (ofLines (as.map line))).map read = as.map .ok := by
  rw [readLines_ofLines, List.map_map]
  · exact List.map_congr_left fun a _ => hread a
  · intro l hl
    obtain ⟨a, -, rfl⟩ := List.mem_map.1 hl
    exact hline a

/-! ### What messages are made of -/

theorem isPlain_digits {radix : Nat} (hradix : 2 ≤ radix) (hradix' : radix ≤ 16) (n : Nat) :
    IsPlain (Numeral.digits radix n) := by
  intro c hc
  have hall : ∀ d < 16, isWhiteSpace (Numeral.digitChar d) = false := by decide
  obtain ⟨d, hd, rfl⟩ := Numeral.mem_digits hradix hc
  exact hall d (Nat.lt_of_lt_of_le hd hradix')

theorem isPlain_decimal (n : Nat) : IsPlain (Numeral.decimal n).toList := by
  rw [Numeral.decimal, String.toList_ofList]
  exact isPlain_digits (by decide) (by decide) n

theorem decimal_ne_empty (n : Nat) : Numeral.decimal n ≠ "" := by
  intro h
  have hlist := congrArg String.toList h
  rw [Numeral.decimal, String.toList_ofList] at hlist
  exact Numeral.digits_ne_nil (by decide) n hlist

theorem isPlain_ipv4 (ip : Ipv4) : IsPlain ip.chars := by
  have hdigits (o : UInt8) : IsPlain (Numeral.digits 10 o.toNat) :=
    isPlain_digits (by decide) (by decide) o.toNat
  unfold Ipv4.chars
  exact (((hdigits ip.a).append ((hdigits ip.b).cons (by decide))).append
    ((hdigits ip.c).cons (by decide))).append ((hdigits ip.d).cons (by decide))

theorem isPlain_joined (ss : List UInt16) : IsPlain (Ipv6.joined ss) := by
  have hdigits (s : UInt16) : IsPlain (Numeral.digits 16 s.toNat) :=
    isPlain_digits (by decide) (by decide) s.toNat
  cases ss with
  | nil =>
    intro c hc
    cases hc
  | cons s ss =>
    rw [Ipv6.joined_cons]
    refine (hdigits s).append fun c hc => ?_
    obtain ⟨t, -, hmem⟩ := List.mem_flatMap.1 hc
    exact (hdigits t).cons (by decide) c hmem

theorem isPlain_ipv6 (ip : Ipv6) : IsPlain ip.chars := by
  unfold Ipv6.chars
  split
  · next v4 _ =>
    exact (isPlain_of_all (by decide)).append (isPlain_ipv4 v4)
  · dsimp only
    split
    · exact (isPlain_joined _).append (((isPlain_joined _).cons (by decide)).cons (by decide))
    · exact isPlain_joined _

/-- An address is one word. -/
theorem isPlain_address (a : SocketAddress) : IsPlain a.text.toList := by
  have hport (p : UInt16) : IsPlain (Numeral.digits 10 p.toNat) :=
    isPlain_digits (by decide) (by decide) p.toNat
  rw [SocketAddress.text, String.toList_ofList]
  cases a with
  | v4 ip port => exact (isPlain_ipv4 ip).append ((hport port).cons (by decide))
  | v6 ip zone port =>
    have hzone : IsPlain (if zone = 0 then [] else '%' :: Numeral.digits 10 zone.toNat) := by
      split
      · intro c hc
        cases hc
      · exact (isPlain_digits (by decide) (by decide) _).cons (by decide)
    exact (((isPlain_ipv6 ip).cons (by decide)).append hzone).append
      (((hport port).cons (by decide)).cons (by decide))

theorem address_ne_empty (a : SocketAddress) : a.text ≠ "" := by
  intro h
  have hread := SocketAddress.read_text a
  rw [h] at hread
  cases hread

end Text

/-! ### Arguments -/

namespace Control

theorem word32_decimal (n : UInt32) : word32 (Numeral.decimal n.toNat) = .ok n := by
  have hlt : n.toNat < 4294967296 := n.toNat_lt
  rw [word32, Numeral.read_decimal (Nat.le_of_lt_succ hlt)]
  exact congrArg Except.ok UInt32.ofNat_toNat

theorem word64_decimal (n : UInt64) : word64 (Numeral.decimal n.toNat) = .ok n := by
  have hlt : n.toNat < 18446744073709551616 := n.toNat_lt
  rw [word64, Numeral.read_decimal (Nat.le_of_lt_succ hlt)]
  exact congrArg Except.ok UInt64.ofNat_toNat

theorem address_text (a : SocketAddress) : address a.text = .ok a := by
  rw [address, SocketAddress.read_text]

end Control

open Text

/-! ### Messages -/

/-- The words of a command are its name and its argument. -/
theorem ControlMessage.words_line (m : ControlMessage) :
    words m.line = match m with
      | drain => ["drain"]
      | shutdown => ["shutdown"]
      | ping nonce => ["ping", Numeral.decimal nonce.toNat] := by
  cases m with
  | drain => exact words_of_isPlain (isPlain_of_all (by decide)) (by decide)
  | shutdown => exact words_of_isPlain (isPlain_of_all (by decide)) (by decide)
  | ping nonce =>
    change words ("ping" ++ " " ++ Numeral.decimal nonce.toNat) = _
    exact words_pair (isPlain_of_all (by decide)) (by decide) (isPlain_decimal _)
      (decimal_ne_empty _)

theorem ControlMessage.isLine_line (m : ControlMessage) : IsLine m.line.toList := by
  refine IsSpaced.isLine ?_
  cases m with
  | drain => exact (isPlain_of_all (by decide)).isSpaced
  | shutdown => exact (isPlain_of_all (by decide)).isSpaced
  | ping nonce =>
    exact IsSpaced.append_blank (s := "ping") (isPlain_of_all (by decide)).isSpaced
      (isPlain_decimal _)

/-- **A command is read as it was written.** -/
theorem ControlMessage.read_line (m : ControlMessage) : read m.line = .ok m := by
  rw [read, words_line]
  cases m with
  | drain => rfl
  | shutdown => rfl
  | ping nonce =>
    rw [ofWords, Control.word64_decimal]
    rfl

/-- The words of a status are its name and its arguments. -/
theorem WorkerStatus.words_line (s : WorkerStatus) :
    words s.line = match s with
      | ready pid address => ["ready", Numeral.decimal pid.toNat, address.text]
      | pong nonce activeSessions =>
        ["pong", Numeral.decimal nonce.toNat, Numeral.decimal activeSessions.toNat]
      | shutdownAck closedSessions => ["shutdown-ack", Numeral.decimal closedSessions.toNat] := by
  cases s with
  | ready pid address =>
    change words ("ready" ++ " " ++ Numeral.decimal pid.toNat ++ " " ++ address.text) = _
    exact words_triple (isPlain_of_all (by decide)) (by decide) (isPlain_decimal _)
      (decimal_ne_empty _) (isPlain_address _) (address_ne_empty _)
  | pong nonce activeSessions =>
    change words ("pong" ++ " " ++ Numeral.decimal nonce.toNat ++ " " ++
      Numeral.decimal activeSessions.toNat) = _
    exact words_triple (isPlain_of_all (by decide)) (by decide) (isPlain_decimal _)
      (decimal_ne_empty _) (isPlain_decimal _) (decimal_ne_empty _)
  | shutdownAck closedSessions =>
    change words ("shutdown-ack" ++ " " ++ Numeral.decimal closedSessions.toNat) = _
    exact words_pair (isPlain_of_all (by decide)) (by decide) (isPlain_decimal _)
      (decimal_ne_empty _)

theorem WorkerStatus.isLine_line (s : WorkerStatus) : IsLine s.line.toList := by
  refine IsSpaced.isLine ?_
  cases s with
  | ready pid address =>
    have hfront := IsSpaced.append_blank (s := "ready") (isPlain_of_all (by decide)).isSpaced
      (isPlain_decimal pid.toNat)
    exact hfront.append_blank (isPlain_address address)
  | pong nonce activeSessions =>
    have hfront := IsSpaced.append_blank (s := "pong") (isPlain_of_all (by decide)).isSpaced
      (isPlain_decimal nonce.toNat)
    exact hfront.append_blank (isPlain_decimal activeSessions.toNat)
  | shutdownAck closedSessions =>
    exact IsSpaced.append_blank (s := "shutdown-ack") (isPlain_of_all (by decide)).isSpaced
      (isPlain_decimal _)

/-- **A status is read as it was written.** -/
theorem WorkerStatus.read_line (s : WorkerStatus) : read s.line = .ok s := by
  rw [read, words_line]
  cases s with
  | ready pid address =>
    rw [ofWords, Control.word32_decimal, Control.address_text]
    rfl
  | pong nonce activeSessions =>
    rw [ofWords, Control.word64_decimal, Control.word64_decimal]
    rfl
  | shutdownAck closedSessions =>
    rw [ofWords, Control.word64_decimal]
    rfl

/-- A command is read as it was written, be its line trimmed first or not. -/
theorem ControlMessage.read_trim (l : String) : read (trim l) = read l := by
  rw [read, read, words_trim]

/-- What can be read back was written in a way of its own. -/
theorem injective_of_read {α ε : Type} {line : α → String} {read : String → Except ε α}
    (hread : ∀ a, read (line a) = .ok a) : Function.Injective line := by
  intro a b hab
  have heq := hread a
  rw [hab, hread b] at heq
  exact (Except.ok.inj heq).symm

/-- **Control lines lose nothing.** Commands that are written one a line are, once the text is split
into lines and each line is trimmed, read as the same commands in the same order; statuses likewise,
whatever numbers and addresses they hold. No two commands have the same line, and no two statuses
have. -/
theorem Control.lines_read_back :
    (∀ ms : List ControlMessage,
      (readLines (ofLines (ms.map ControlMessage.line))).map
        (fun l => ControlMessage.read (trim l)) = ms.map .ok) ∧
      (∀ ss : List WorkerStatus,
        (readLines (ofLines (ss.map WorkerStatus.line))).map WorkerStatus.read = ss.map .ok) ∧
      Function.Injective ControlMessage.line ∧ Function.Injective WorkerStatus.line := by
  refine ⟨fun ms => ?_, fun ss => ?_, ?_, ?_⟩
  · -- A trimmed command has the same words, so it is read as the same.
    refine map_readLines ControlMessage.isLine_line (fun m => ?_) ms
    rw [ControlMessage.read_trim, ControlMessage.read_line]
  · exact map_readLines WorkerStatus.isLine_line WorkerStatus.read_line ss
  · exact injective_of_read ControlMessage.read_line
  · exact injective_of_read WorkerStatus.read_line

end Smpp
