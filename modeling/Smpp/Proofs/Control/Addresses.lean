import Mathlib
import Smpp.Text.SocketAddress
import Smpp.Proofs.Control.Numerals

/-!
# Addresses read back

Every address is read as it was written (`SocketAddress.read_text`). The reader takes what it can
off the front of a text, so each lemma here says what it takes off the written form of a thing *and
whatever stands behind it*, provided that this can be no part of the thing: no digit behind a number
(`NoDigit`), no further segment behind segments (`NoSegment`).

The written form of eight segments has three shapes, and the reader tells them apart by how many
segments it finds first. If all eight are there, it is done. If there are fewer, `::` stands for the
zeros that are missing, and since at least two are, the segments on both sides fit into what the
reader takes at most. Dotted octets stand at the end of a mapped address, and nowhere else are they
found: the digits of a segment are never followed by a dot.
-/

namespace Smpp

/-! ### The written form of segments -/

namespace Ipv6

open Numeral

/-- Segments, each after a colon. -/
def following (ss : List UInt16) : List Char := ss.flatMap fun s => ':' :: digits 16 s.toNat

theorem joined_cons (s : UInt16) (ss : List UInt16) :
    joined (s :: ss) = digits 16 s.toNat ++ following ss := by
  induction ss generalizing s with
  | nil => exact (List.append_nil _).symm
  | cons t ss ih =>
    rw [joined, ih]
    · rfl
    · exact List.cons_ne_nil t ss

/-- The place and length of the longest run of zeros belong to a run of zeros. -/
theorem exists_zeros (place : Nat) (ss : List UInt16) :
    ∃ before after, ss = before ++ List.replicate (longestZeros place ss).2 0 ++ after ∧
      (longestZeros place ss).1 = place + before.length := by
  induction ss generalizing place with
  | nil => exact ⟨[], [], rfl, rfl⟩
  | cons s ss ih =>
    rw [longestZeros]
    split
    · -- The run begins at this segment.
      refine ⟨[], (s :: ss).dropWhile (· == 0), ?_, rfl⟩
      have hzeros : (s :: ss).takeWhile (· == 0) =
          List.replicate ((s :: ss).takeWhile (· == 0)).length 0 :=
        List.eq_replicate_of_mem fun t ht => by
          have hzero := List.mem_takeWhile_imp ht
          exact eq_of_beq hzero
      rw [List.nil_append, ← hzeros, List.takeWhile_append_dropWhile]
    · obtain ⟨before, after, heq, hplace⟩ := ih (place + 1)
      refine ⟨s :: before, after, congrArg (s :: ·) heq, ?_⟩
      rw [hplace, List.length_cons]
      omega

/-- The octets of a mapped address are the last two of its segments. -/
theorem segments_of_mapped? {ip : Ipv6} {v4 : Ipv4} (h : ip.mapped? = some v4) :
    ip.segments = List.replicate 5 0 ++ 0xFFFF :: v4.toSegments := by
  unfold mapped? at h
  split at h
  · next hi lo hsegments =>
    cases h
    rw [hsegments, Ipv4.toSegments, Octets.word16_octets, Octets.word16_octets]
    rfl
  · cases h

end Ipv6

namespace SocketAddress

open Numeral

/-! ### Numbers -/

/-- No text with this in front goes on with a digit. -/
def NoDigit (rest : List Char) : Prop := ∀ c ∈ rest.head?, digit? 16 c = none

theorem noDigit_nil : NoDigit [] := by
  intro c hc
  cases hc

theorem noDigit_cons {c : Char} {rest : List Char} (h : digit? 16 c = none) :
    NoDigit (c :: rest) := by
  intro d hd
  cases hd
  exact h

variable {radix : Nat} {rest : List Char}

theorem takeWhile_eq_nil (hradix : radix ≤ 16) (hrest : NoDigit rest) :
    (rest.takeWhile fun c => (digit? radix c).isSome) = [] := by
  cases rest with
  | nil => rfl
  | cons c cs =>
    rw [List.takeWhile_cons_of_neg]
    rw [digit?_eq_none hradix (hrest c rfl)]
    exact Bool.false_ne_true

/-- The digits of a number are taken off as far as they go. -/
theorem takeWhile_digits (hradix : 2 ≤ radix) (hradix' : radix ≤ 16) (n : Nat)
    (hrest : NoDigit rest) :
    ((digits radix n ++ rest).takeWhile fun c => (digit? radix c).isSome) = digits radix n := by
  rw [List.takeWhile_append_of_pos fun c hc => isSome_digit?_of_mem hradix hradix' hc,
    takeWhile_eq_nil hradix' hrest, List.append_nil]

/-- **A number is taken off the front**, if it has not too many digits and is not too large. -/
theorem number_digits (hradix : 2 ≤ radix) (hradix' : radix ≤ 16) {n largest : Nat}
    {most : Option Nat} (zeroInFront : Bool) (hn : n ≤ largest)
    (hmost : ∀ m ∈ most, (digits radix n).length ≤ m) (hrest : NoDigit rest) :
    number radix most zeroInFront largest (digits radix n ++ rest) = some (n, rest) := by
  have hne : (digits radix n).isEmpty = false :=
    List.isEmpty_eq_false_iff.2 (digits_ne_nil hradix n)
  have hlength : (most.any (· < (digits radix n).length)) = false := by
    cases most with
    | none => rfl
    | some m => exact decide_eq_false (Nat.not_lt.2 (hmost m rfl))
  -- Only zero starts with a zero, and it is one digit.
  have hfront : (!zeroInFront && (digits radix n).head? == some '0' &&
      decide (1 < (digits radix n).length)) = false := by
    obtain rfl | hpos := Nat.eq_zero_or_pos n
    · have hone : (digits radix 0).length ≤ 1 :=
        length_digits_le hradix Nat.one_pos (by rw [Nat.pow_one]; omega)
      rw [decide_eq_false (Nat.not_lt.2 hone), Bool.and_false]
    · rw [beq_eq_false_iff_ne.2 (head?_digits_ne_zero hradix hradix' hpos), Bool.and_false,
        Bool.false_and]
  unfold number
  dsimp only
  rw [takeWhile_digits hradix hradix' n hrest, value_digits hradix hradix', hne, hlength, hfront,
    if_neg (Nat.not_lt.2 hn), List.drop_left]
  rfl

theorem number_eq_none (hradix : radix ≤ 16) {most : Option Nat} {zeroInFront : Bool}
    {largest : Nat} (hrest : NoDigit rest) :
    number radix most zeroInFront largest rest = none := by
  unfold number
  dsimp only
  rw [takeWhile_eq_nil hradix hrest]
  rfl

/-- What is left behind a number is the text from the first character that is no digit. -/
theorem eq_dropWhile_of_number {most : Option Nat} {zeroInFront : Bool} {largest n : Nat}
    {cs after : List Char} (h : number radix most zeroInFront largest cs = some (n, after)) :
    after = cs.dropWhile fun c => (digit? radix c).isSome := by
  unfold number at h
  dsimp only at h
  iterate 4 (split at h; · cases h)
  cases h
  have hdrop := @List.drop_left _ (cs.takeWhile fun c => (digit? radix c).isSome)
    (cs.dropWhile fun c => (digit? radix c).isSome)
  rw [List.takeWhile_append_dropWhile] at hdrop
  exact hdrop

/-! ### Dotted octets -/

theorem octet_digits (o : UInt8) (hrest : NoDigit rest) :
    octet (digits 10 o.toNat ++ rest) = some (o, rest) := by
  have hlt : o.toNat < 256 := o.toNat_lt
  unfold octet
  rw [number_digits (by decide) (by decide) false (by omega) ?_ hrest]
  · exact congrArg (fun o => some (o, rest)) UInt8.ofNat_toNat
  · intro m hm
    cases hm
    exact length_digits_le (by decide) (by decide) (by omega)

theorem expect_cons (c : Char) (rest : List Char) : expect c (c :: rest) = some rest := if_pos rfl

/-- Four dotted octets are taken off the front. -/
theorem ipv4_chars (ip : Ipv4) (hrest : NoDigit rest) :
    ipv4 (ip.chars ++ rest) = some (ip, rest) := by
  have hdot (cs : List Char) : NoDigit ('.' :: cs) := noDigit_cons (by decide)
  unfold ipv4 Ipv4.chars
  simp only [List.append_assoc, List.cons_append, Option.bind_eq_bind, Option.bind_some,
    octet_digits _ (hdot _), octet_digits _ hrest, expect_cons]
  rfl

/-- Where no dot stands behind the first digits, there are no dotted octets. -/
theorem ipv4_eq_none {cs : List Char}
    (h : (cs.dropWhile fun c => (digit? 10 c).isSome).head? ≠ some '.') : ipv4 cs = none := by
  unfold ipv4
  rw [Option.bind_eq_bind, Option.bind_eq_none_iff]
  rintro ⟨o, after⟩ hoctet
  obtain ⟨⟨n, after'⟩, hnumber, heq⟩ := Option.map_eq_some_iff.1 hoctet
  cases heq
  have hexpect : expect '.' after = none := by
    rw [eq_dropWhile_of_number hnumber]
    revert h
    cases cs.dropWhile fun c => (digit? 10 c).isSome with
    | nil => exact fun _ => rfl
    | cons c more =>
      intro h
      exact if_neg fun hc => h (congrArg some hc)
  dsimp only
  rw [hexpect]
  rfl

/-- Where neither a digit nor a dot stands in front, there are no dotted octets. -/
theorem ipv4_eq_none_of_noDigit (hrest : NoDigit rest) (hdot : rest.head? ≠ some '.') :
    ipv4 rest = none := by
  refine ipv4_eq_none ?_
  cases rest with
  | nil => exact hdot
  | cons c cs =>
    rw [List.dropWhile_cons_of_neg]
    · exact hdot
    · rw [digit?_eq_none (by decide) (hrest c rfl)]
      exact Bool.false_ne_true

/-- A segment is not taken for dotted octets. -/
theorem ipv4_digits (n : Nat) (hrest : NoDigit rest) (hdot : rest.head? ≠ some '.') :
    ipv4 (digits 16 n ++ rest) = none := by
  refine ipv4_eq_none ?_
  have hnone : '.' ∉ digits 16 n := by
    intro hmem
    exact absurd (isSome_digit?_of_mem (by decide) (by decide) hmem) (by decide)
  revert hnone
  -- Whatever digits of the segment are left over, the first of them is no dot.
  generalize digits 16 n = ds
  intro hnone
  induction ds with
  | nil =>
    cases rest with
    | nil => exact hdot
    | cons c cs =>
      rw [List.nil_append, List.dropWhile_cons_of_neg]
      · exact hdot
      · rw [digit?_eq_none (by decide) (hrest c rfl)]
        exact Bool.false_ne_true
  | cons d ds ih =>
    rw [List.mem_cons, not_or] at hnone
    rw [List.cons_append, List.dropWhile_cons]
    split
    · exact ih hnone.2
    · intro hd
      exact hnone.1 (Option.some.inj hd).symm

/-! ### Segments -/

/-- No further segment stands in front, be it with its colon or without one. -/
structure NoSegment (rest : List Char) : Prop where
  /-- There is no digit without a colon, -/
  noDigit : NoDigit rest
  /-- nor a dot behind digits, -/
  noDot : rest.head? ≠ some '.'
  /-- nor a digit or a dot behind a colon. -/
  noNext : ∀ more, rest = ':' :: more → NoDigit more ∧ more.head? ≠ some '.'

/-- No segment stands at the place where zeros are left out. -/
theorem noSegment_gap (rest : List Char) : NoSegment (':' :: ':' :: rest) where
  noDigit := noDigit_cons (by decide)
  noDot := by
    intro h
    cases h
  noNext := by
    intro more h
    cases h
    refine ⟨noDigit_cons (by decide), fun h => ?_⟩
    cases h

/-- No segment begins with a character that is none of a segment's. -/
theorem noSegment_cons {c : Char} (hdigit : digit? 16 c = none) (hdot : c ≠ '.') (hcolon : c ≠ ':')
    (rest : List Char) : NoSegment (c :: rest) where
  noDigit := noDigit_cons hdigit
  noDot := fun h => hdot (Option.some.inj h)
  noNext := fun _ h => absurd (List.cons.inj h).1 hcolon

/-- Where no segment stands, none is taken off. -/
theorem segments_of_noSegment (hrest : NoSegment rest) (limit : Nat) (first : Bool) :
    segments limit first rest = ⟨[], false, rest⟩ := by
  cases limit with
  | zero => rfl
  | succ limit =>
    -- What the reader would go on with begins with neither a digit nor a dot.
    have hnext : ∀ next, (if first then some rest else expect ':' rest) = some next →
        NoDigit next ∧ next.head? ≠ some '.' := by
      intro next hnext
      cases first with
      | true =>
        cases hnext
        exact ⟨hrest.noDigit, hrest.noDot⟩
      | false =>
        cases rest with
        | nil => cases hnext
        | cons c cs =>
          change (if c = ':' then some cs else none) = some next at hnext
          obtain ⟨hc, heq⟩ := Option.ite_none_right_eq_some.1 hnext
          cases heq
          exact hrest.noNext next (congrArg (· :: next) hc)
    rw [segments]
    dsimp only
    revert hnext
    cases (if first then some rest else expect ':' rest) with
    | none =>
      intro _
      rw [Option.bind_none, Option.bind_none, ite_self]
    | some next =>
      intro hnext
      obtain ⟨hdigit, hdot⟩ := hnext next rfl
      rw [Option.bind_some, Option.bind_some, ipv4_eq_none_of_noDigit hdigit hdot, ite_self,
        number_eq_none (by decide) hdigit]

/-- **A segment is taken off the front**, after its colon unless it is the first. -/
theorem segments_digits {s : UInt16} {limit : Nat} {first : Bool} {cs : List Char}
    (hnext : (if first then some cs else expect ':' cs) = some (digits 16 s.toNat ++ rest))
    (hdigit : NoDigit rest) (hdot : rest.head? ≠ some '.') :
    segments (limit + 1) first cs =
      ⟨s :: (segments limit false rest).found, (segments limit false rest).dotted,
        (segments limit false rest).rest⟩ := by
  have hlt : s.toNat < 65536 := s.toNat_lt
  have hnumber : number 16 (some 4) true 65535 (digits 16 s.toNat ++ rest) =
      some (s.toNat, rest) := by
    refine number_digits (by decide) (by decide) true (by omega) ?_ hdigit
    intro m hm
    cases hm
    exact length_digits_le (by decide) (by decide) (by omega)
  rw [segments]
  dsimp only
  rw [hnext, Option.bind_some, Option.bind_some, ipv4_digits _ hdigit hdot, ite_self, hnumber]
  dsimp only
  rw [UInt16.ofNat_toNat]

theorem noDigit_following (ss : List UInt16) (hrest : NoSegment rest) :
    NoDigit (Ipv6.following ss ++ rest) ∧ (Ipv6.following ss ++ rest).head? ≠ some '.' := by
  cases ss with
  | nil => exact ⟨hrest.noDigit, hrest.noDot⟩
  | cons s ss =>
    refine ⟨noDigit_cons (by decide), fun h => ?_⟩
    cases h

theorem segments_following {ss : List UInt16} {limit : Nat} (hlimit : ss.length ≤ limit)
    (hrest : NoSegment rest) :
    segments limit false (Ipv6.following ss ++ rest) = ⟨ss, false, rest⟩ := by
  induction ss generalizing limit with
  | nil => exact segments_of_noSegment hrest limit false
  | cons s ss ih =>
    obtain ⟨limit, rfl⟩ := Nat.exists_eq_add_of_lt hlimit
    obtain ⟨hdigit, hdot⟩ := noDigit_following ss hrest
    have hnext : (if false then some (Ipv6.following (s :: ss) ++ rest)
        else expect ':' (Ipv6.following (s :: ss) ++ rest)) =
        some (digits 16 s.toNat ++ (Ipv6.following ss ++ rest)) := by
      rw [← List.append_assoc]
      exact expect_cons ':' _
    rw [segments_digits hnext hdigit hdot, ih (by omega)]

/-- **Segments are taken off the front** as they were written. -/
theorem segments_joined {ss : List UInt16} {limit : Nat} (hlimit : ss.length ≤ limit)
    (hrest : NoSegment rest) :
    segments limit true (Ipv6.joined ss ++ rest) = ⟨ss, false, rest⟩ := by
  cases ss with
  | nil => exact segments_of_noSegment hrest limit true
  | cons s ss =>
    obtain ⟨limit, rfl⟩ := Nat.exists_eq_add_of_lt hlimit
    obtain ⟨hdigit, hdot⟩ := noDigit_following ss hrest
    have hnext : (if true then some (Ipv6.joined (s :: ss) ++ rest)
        else expect ':' (Ipv6.joined (s :: ss) ++ rest)) =
        some (digits 16 s.toNat ++ (Ipv6.following ss ++ rest)) := by
      rw [Ipv6.joined_cons, List.append_assoc]
      rfl
    rw [segments_digits hnext hdigit hdot, segments_following (by omega) hrest]

theorem ofSegments?_segments (ip : Ipv6) : ofSegments? ip.segments = some ip :=
  dif_pos ip.length_eq

/-- What is read of segments that leave a gap for zeros. -/
theorem ipv6_gap {ip : Ipv6} {before tail : List UInt16} {dotted : Bool} {cs cs' : List Char}
    {zeros : Nat} (hbefore : segments 8 true cs = ⟨before, false, ':' :: ':' :: cs'⟩)
    (htail : segments (7 - before.length) true cs' = ⟨tail, dotted, rest⟩)
    (hzeros : 0 < zeros)
    (hsegments : ip.segments = before ++ List.replicate zeros 0 ++ tail) :
    ipv6 cs = some (ip, rest) := by
  have hlength := ip.length_eq
  rw [hsegments, List.length_append, List.length_append, List.length_replicate] at hlength
  -- The reader fills up to eight segments, which puts back as many zeros as were left out.
  have hgap : 8 - before.length - tail.length = zeros := by omega
  unfold ipv6
  dsimp only
  rw [hbefore]
  dsimp only
  rw [if_neg (by omega), if_neg Bool.false_ne_true, expect_cons, Option.bind_eq_bind,
    Option.bind_some, expect_cons, Option.bind_eq_bind, Option.bind_some, htail]
  dsimp only
  rw [hgap, ← hsegments, ofSegments?_segments]
  rfl

/-- A mapped address is taken off the front. -/
theorem ipv6_mapped {ip : Ipv6} {v4 : Ipv4} (h : ip.mapped? = some v4) (hrest : NoDigit rest) :
    ipv6 ("::ffff:".toList ++ v4.chars ++ rest) = some (ip, rest) := by
  have htail : segments 7 true ("ffff:".toList ++ (v4.chars ++ rest)) =
      ⟨0xFFFF :: v4.toSegments, true, rest⟩ := by
    -- The segment before the dotted octets ends in a colon, so it is read as a segment.
    have hnone : ipv4 ("ffff:".toList ++ (v4.chars ++ rest)) = none :=
      ipv4_eq_none fun h => absurd (Option.some.inj h) (by decide)
    have hnumber : number 16 (some 4) true 65535 ("ffff:".toList ++ (v4.chars ++ rest)) =
        some (65535, ':' :: (v4.chars ++ rest)) := rfl
    have hdotted : segments 6 false (':' :: (v4.chars ++ rest)) = ⟨v4.toSegments, true, rest⟩ := by
      rw [segments]
      dsimp only
      rw [if_neg Bool.false_ne_true, expect_cons, Option.bind_some, ipv4_chars v4 hrest]
      rfl
    rw [segments]
    dsimp only
    rw [if_pos rfl, Option.bind_some, Option.bind_some, hnone, ite_self, hnumber]
    dsimp only
    rw [hdotted]
    rfl
  exact ipv6_gap (segments_of_noSegment (noSegment_gap _) 8 true) htail (Nat.succ_pos 4)
    (Ipv6.segments_of_mapped? h)

/-- **An address of eight segments is taken off the front**, however it was written. -/
theorem ipv6_chars (ip : Ipv6) (hrest : NoSegment rest) :
    ipv6 (ip.chars ++ rest) = some (ip, rest) := by
  have hlength := ip.length_eq
  unfold Ipv6.chars
  split
  · next v4 hmapped => exact ipv6_mapped hmapped hrest.noDigit
  · obtain ⟨before, after, hsegments, hplace⟩ := Ipv6.exists_zeros 0 ip.segments
    dsimp only
    split
    · next hzeros =>
      -- Zeros are left out: what stands before them is read, then what stands after them.
      revert hsegments hplace hzeros
      generalize Ipv6.longestZeros 0 ip.segments = run
      intro hsegments hplace hzeros
      have hcount := hlength
      rw [hsegments, List.length_append, List.length_append, List.length_replicate] at hcount
      have htake : ip.segments.take run.1 = before := by
        rw [hsegments, hplace, Nat.zero_add, List.append_assoc, List.take_left]
      have hdrop : ip.segments.drop (run.1 + run.2) = after := by
        have hboth : run.1 + run.2 = (before ++ List.replicate run.2 (0 : UInt16)).length := by
          rw [List.length_append, List.length_replicate, hplace, Nat.zero_add]
        rw [hboth]
        conv_lhs => rw [hsegments]
        exact List.drop_left
      rw [htake, hdrop, List.append_assoc]
      exact ipv6_gap (segments_joined (by omega) (noSegment_gap _))
        (segments_joined (by omega) hrest) (Nat.lt_trans Nat.one_pos hzeros) hsegments
    · -- All eight segments are there.
      unfold ipv6
      dsimp only
      rw [segments_joined (Nat.le_of_eq hlength) hrest]
      dsimp only
      rw [if_pos hlength, ofSegments?_segments]
      rfl

/-! ### Whole addresses -/

theorem portNumber_digits (port : UInt16) (hrest : NoDigit rest) :
    portNumber (':' :: (digits 10 port.toNat ++ rest)) = some (port, rest) := by
  have hlt : port.toNat < 65536 := port.toNat_lt
  unfold portNumber
  rw [expect_cons, Option.bind_eq_bind, Option.bind_some,
    number_digits (by decide) (by decide) true (by omega)
      (fun _ h => (Option.not_mem_none _ h).elim) hrest]
  dsimp only [Option.bind_eq_bind, Option.bind_some]
  rw [UInt16.ofNat_toNat]
  rfl

/-- A scope is taken off the front, and zero where none was written. -/
theorem scope_zone (zone : UInt32) (rest : List Char) :
    scope ((if zone = 0 then [] else '%' :: digits 10 zone.toNat) ++ ']' :: rest) =
      (zone, ']' :: rest) := by
  have hlt : zone.toNat < 4294967296 := zone.toNat_lt
  by_cases hzone : zone = 0
  · rw [if_pos hzone, hzone]
    rfl
  · unfold scope
    rw [if_neg hzone, List.cons_append, expect_cons, Option.bind_some,
      number_digits (by decide) (by decide) true (by omega)
        (fun _ h => (Option.not_mem_none _ h).elim) (noDigit_cons (by decide))]
    dsimp only
    rw [UInt32.ofNat_toNat]

theorem noSegment_zone (zone : UInt32) (rest : List Char) :
    NoSegment ((if zone = 0 then [] else '%' :: digits 10 zone.toNat) ++ ']' :: rest) := by
  split
  · exact noSegment_cons (by decide) (by decide) (by decide) rest
  · exact noSegment_cons (by decide) (by decide) (by decide) _

theorem readV4_chars (ip : Ipv4) (port : UInt16) :
    readV4 (chars (.v4 ip port)) = some (.v4 ip port, []) := by
  have hport := portNumber_digits port noDigit_nil
  rw [List.append_nil] at hport
  unfold readV4 chars
  rw [ipv4_chars ip (noDigit_cons (by decide))]
  dsimp only [Option.bind_eq_bind, Option.bind_some]
  rw [hport]
  rfl

theorem readV6_chars (ip : Ipv6) (zone : UInt32) (port : UInt16) :
    readV6 (chars (.v6 ip zone port)) = some (.v6 ip zone port, []) := by
  have hport := portNumber_digits port noDigit_nil
  rw [List.append_nil] at hport
  unfold readV6 chars
  dsimp only
  rw [List.append_assoc, List.cons_append, expect_cons]
  dsimp only [Option.bind_eq_bind, Option.bind_some]
  rw [ipv6_chars ip (noSegment_zone zone _)]
  dsimp only [Option.bind_some]
  rw [scope_zone]
  dsimp only
  rw [expect_cons, Option.bind_some, hport]
  rfl

/-- What begins with a bracket does not begin with dotted octets. -/
theorem readV4_bracket (cs : List Char) : readV4 ('[' :: cs) = none := by
  have hdot : ('[' :: cs).head? ≠ some '.' := fun h => absurd (Option.some.inj h) (by decide)
  unfold readV4
  rw [ipv4_eq_none_of_noDigit (noDigit_cons (by decide)) hdot]
  rfl

/-- **An address is read as it was written.** -/
theorem read_text (a : SocketAddress) : read a.text = some a := by
  unfold read text
  rw [String.toList_ofList]
  cases a with
  | v4 ip port =>
    rw [readV4_chars]
    rfl
  | v6 ip zone port =>
    have hbracket : readV4 (chars (.v6 ip zone port)) = none := readV4_bracket _
    rw [hbracket, Option.orElse_none, readV6_chars]

end SocketAddress

end Smpp
