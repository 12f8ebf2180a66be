import Smpp.Proofs.Wire.Lengths
import Smpp.Handler.Progress

/-!
# Frames do not depend on how a stream is cut

What a connection makes of a stream can be said without the connection: `Connection.pass` goes over
the whole stream once, from the first octet of a frame to the first octet of the next, and notes
what it finds at each place. `Connection.readings` is what really happens: octets arrive in pieces,
frames are read in between, and in the end the client stops.

`readings_agree` says that the two are the same, entry by entry and to the end, for every way of
cutting the stream and every way of spreading the reads over it. There is one thing that the pieces
decide: whether a length that cannot be is reported with the sequence number, since it may be
reported before that has been read.

The proof goes along the reads. Before each of them the connection holds what the stream has at the
place that the pass has come to, as far as it has arrived; `readStep` says what one read makes of
that, and the runs follow by induction on what is left.
-/

namespace Smpp.Connection

/-! ### One pass over a stream -/

/-- What there is at a place of a stream. -/
inductive Entry where
  /-- A frame. -/
  | frame (f : Frame)
  /-- The octets of a frame that are none: its command, its sequence number and what is wrong. -/
  | malformed (command sequence : UInt32) (cause : WireError)
  /-- A length that cannot be, at a place of the stream. -/
  | framing (place : Nat) (cause : WireError)
  /-- The end of the stream, between two frames. -/
  | closed
  /-- The end of the stream, within a frame. -/
  | reset
  deriving DecidableEq, Repr

/-- What the octets of a frame are, with the command and the sequence number that they carry. -/
def Entry.ofParse (command sequence : UInt32) : Except WireError Frame → Entry
  | .ok f => .frame f
  | .error e => .malformed command sequence e

/-- What there is to find in a stream from a place on where a frame starts. -/
def pass (largest : Nat) (stream : Octets) (place : Nat) : List Entry :=
  match Frame.statedLength (stream.drop place) with
  | none => [if stream.length ≤ place then .closed else .reset]
  | some n =>
    if n < headerSize ∨ largest < n then
      [.framing place (.invalidLength n headerSize largest)]
    else if stream.length < place + n then [.reset]
    else
      .ofParse (stream.wordAt (place + 4)) (stream.wordAt (place + 12))
          (Frame.parse largest ((stream.drop place).take n)) ::
        pass largest stream (place + n)
  termination_by stream.length - place
  decreasing_by
    rename_i hbounds hlength
    unfold headerSize at hbounds
    omega

/-- The result that stands for an entry when so many octets of the stream have got to the buffer. -/
def Entry.result (stream : Octets) (arrived : Nat) : Entry → ReadResult
  | frame f => .frame f
  | malformed command sequence cause => .error (.malformed command sequence cause)
  | framing place cause =>
    let sequence := if place + headerSize ≤ arrived then some (stream.wordAt (place + 12)) else none
    .error (.framing sequence cause)
  | closed => .closed
  | reset => .error .reset

/-! ### Reads between arrivals -/

/-- One thing that happens to a connection whose client still sends. -/
inductive Turn where
  /-- A piece of the stream arrives. -/
  | arrive (bs : Octets)
  /-- A frame is read, if one is there. -/
  | read
  deriving DecidableEq, Repr

/-- The stream that arrives in some turns. -/
def stream : List Turn → Octets
  | [] => []
  | .arrive bs :: turns => bs ++ stream turns
  | .read :: turns => stream turns

/-- A result of reading, and how many octets of the stream had got to the buffer by then. -/
structure Reading where
  result : ReadResult
  arrived : Nat
  deriving DecidableEq, Repr

/-- Reads on, from a connection to which nothing more comes, until there is nothing to read. So many
octets have come to it. -/
def readingsToEnd (received : Nat) (c : Connection) : List Reading :=
  ⟨c.read.2, received - c.read.1.arrived.length⟩ ::
    if goesOn c.read.2 then readingsToEnd received c.read.1 else []
  termination_by c.size
  decreasing_by exact (size_read c).2 ‹_›

/-- What is read from a connection in some turns, and after them, when the client has stopped. A
read that finds no whole frame leaves everything to the next one, and nothing is read after the end
of the stream. So many octets have come to the connection before. -/
def readings (received : Nat) (c : Connection) : List Turn → List Reading
  | [] => readingsToEnd received { c with ending := .eof }
  | .arrive bs :: turns => readings (received + bs.length) (c.receive bs) turns
  | .read :: turns =>
    if c.read.2 = .pending then readings received c.read.1 turns
    else
      ⟨c.read.2, received - c.read.1.arrived.length⟩ ::
        if goesOn c.read.2 then readings received c.read.1 turns else []

/-! ### What one read makes of a stream -/

section Pass

variable {largest : Nat} {s : Octets} {place : Nat}

theorem pass_of_unstated (hstated : Frame.statedLength (s.drop place) = none) :
    pass largest s place = [if s.length ≤ place then .closed else .reset] := by
  rw [pass, hstated]

theorem pass_of_impossible {n : Nat} (hstated : Frame.statedLength (s.drop place) = some n)
    (hbounds : n < headerSize ∨ largest < n) :
    pass largest s place = [.framing place (.invalidLength n headerSize largest)] := by
  rw [pass, hstated]
  dsimp only
  rw [if_pos hbounds]

theorem pass_of_short {n : Nat} (hstated : Frame.statedLength (s.drop place) = some n)
    (hbounds : ¬ (n < headerSize ∨ largest < n)) (hlength : s.length < place + n) :
    pass largest s place = [.reset] := by
  rw [pass, hstated]
  dsimp only
  rw [if_neg hbounds, if_pos hlength]

theorem pass_of_whole {n : Nat} (hstated : Frame.statedLength (s.drop place) = some n)
    (hbounds : ¬ (n < headerSize ∨ largest < n)) (hlength : ¬ s.length < place + n) :
    pass largest s place =
      .ofParse (s.wordAt (place + 4)) (s.wordAt (place + 12))
          (Frame.parse largest ((s.drop place).take n)) ::
        pass largest s (place + n) := by
  rw [pass, hstated]
  dsimp only
  rw [if_neg hbounds, if_neg hlength]

end Pass

/-- A connection that has read what has arrived. -/
def fetched (c : Connection) : Connection :=
  { c with buffer := c.buffer ++ c.arrived, arrived := [] }

section Read

variable {c : Connection} {r : Connection × ReadResult}

theorem read_of_take (h : c.take = some r) : c.read = r := by
  unfold read
  rw [h]

theorem read_of_fetched (h : c.take = none) (hfetched : c.fetched.take = some r) :
    c.read = r := by
  unfold fetched at hfetched
  unfold read
  rw [h]
  dsimp only
  rw [hfetched]

theorem read_of_rest (h : c.take = none) (hfetched : c.fetched.take = none) :
    c.read = (c.fetched, c.fetched.rest) := by
  unfold fetched at hfetched
  unfold read
  rw [h]
  dsimp only
  rw [hfetched]
  rfl

end Read

/-- What a read from a connection does, where the connection holds what has arrived of a stream from
a place on. -/
inductive ReadStep (s : Octets) (place : Nat) (c : Connection) :
    Connection × ReadResult → Prop where
  /-- The octets of the next frame have not all come. -/
  | waits {d : Connection} (hlargest : d.largest = c.largest) (hending : d.ending = c.ending)
    (hopen : c.ending = .none) (hheld : d.buffer ++ d.arrived = c.buffer ++ c.arrived) :
    ReadStep s place c (d, .pending)
  /-- The next frame is passed, and the pass goes on behind it. -/
  | passes {d : Connection} {r : ReadResult} {n : Nat} {entry : Entry}
    (hpass : pass c.largest s place = entry :: pass c.largest s (place + n))
    (hresult : ∀ arrived, entry.result s arrived = r) (hgoes : goesOn r = true)
    (hlargest : d.largest = c.largest) (hending : d.ending = c.ending)
    (hn : n ≤ (c.buffer ++ c.arrived).length)
    (hheld : d.buffer ++ d.arrived = (c.buffer ++ c.arrived).drop n) : ReadStep s place c (d, r)
  /-- The pass ends here. -/
  | ends {d : Connection} {r : ReadResult} {entry : Entry}
    (hpass : pass c.largest s place = [entry])
    (hresult : entry.result s (place + d.buffer.length) = r) (hstops : goesOn r = false)
    (hpending : r ≠ .pending) (hheld : d.buffer ++ d.arrived = c.buffer ++ c.arrived) :
    ReadStep s place c (d, r)

section Step

variable {s : Octets} {place : Nat}

/-- The frame at the front of a buffer is the one that the pass finds. -/
theorem readStep_of_whole {c : Connection} {future : Octets} {n : Nat}
    (hstream : s.drop place = c.buffer ++ future) (hcheck : Frame.check c.largest c.buffer = .ok n)
    {r : Connection × ReadResult} (htake : c.take = some r) : ReadStep s place c r := by
  obtain ⟨hstated, hmin, hmax, hlength⟩ := Frame.check_eq_ok_iff.1 hcheck
  have hcount : s.length - place = c.buffer.length + future.length := by
    rw [← List.length_drop, hstream, List.length_append]
  have hframe : (s.drop place).take n = c.buffer.take n := by
    rw [hstream, List.take_append_of_le_length hlength]
  -- The words of the header stand in the stream where they stand in the buffer.
  have hword : ∀ i, i + 4 ≤ c.buffer.length → c.buffer.wordAt i = s.wordAt (place + i) := by
    intro i hi
    rw [← Octets.wordAt_drop, hstream, Octets.wordAt_append hi]
  have hstated' := Frame.statedLength_append hstated future
  rw [← hstream] at hstated'
  have hbounds : ¬ (n < headerSize ∨ c.largest < n) := by omega
  have henough : ¬ s.length < place + n := by
    unfold headerSize at hmin
    omega
  have hpass := pass_of_whole hstated' hbounds henough
  rw [hframe, Frame.parse_take_of_ok hcheck] at hpass
  have hheld : c.buffer.drop n ++ c.arrived = (c.buffer ++ c.arrived).drop n := by
    rw [List.drop_append_of_le_length hlength]
  have hn : n ≤ (c.buffer ++ c.arrived).length := by
    rw [List.length_append]
    omega
  unfold take at htake
  rw [hcheck] at htake
  dsimp only at htake
  cases hparse : Frame.ofOctets c.largest (c.buffer.take n) with
  | ok f =>
    rw [hparse] at htake hpass
    cases htake
    exact .passes hpass (fun _ => rfl) rfl rfl rfl hn hheld
  | error e =>
    rw [hparse] at htake hpass
    cases hread : HeaderWords.read c.buffer with
    | none =>
      have hshort := HeaderWords.read_eq_none_iff.1 hread
      omega
    | some w =>
      have hwords : w.1 = _ := HeaderWords.words_of_read hread
      dsimp only at htake
      rw [hread] at htake
      cases htake
      refine .passes hpass (fun _ => ?_) rfl rfl rfl hn hheld
      unfold headerSize at hmin
      rw [Entry.ofParse, Entry.result, hwords, hword 4 (by omega), hword 12 (by omega)]

/-- A read that takes the front off a buffer does what the pass does there. -/
theorem readStep_of_take {c : Connection} {future : Octets}
    (hstream : s.drop place = c.buffer ++ future) {r : Connection × ReadResult}
    (htake : c.take = some r) : ReadStep s place c r := by
  have hchecked := Frame.checked c.largest c.buffer
  generalize hcheck : Frame.check c.largest c.buffer = verdict at hchecked
  cases hchecked with
  | unstated hstated =>
    unfold take at htake
    rw [hcheck] at htake
    cases htake
  | short hstated hbounds hlength =>
    unfold take at htake
    rw [hcheck] at htake
    cases htake
  | whole hstated hbounds hlength => exact readStep_of_whole hstream hcheck htake
  | impossible hstated hbounds =>
    unfold take at htake
    rw [hcheck] at htake
    cases htake
    have hstated' := Frame.statedLength_append hstated future
    rw [← hstream] at hstated'
    have hpass := pass_of_impossible hstated' hbounds
    refine .ends hpass ?_ rfl (fun h => nomatch h) rfl
    -- What of the header has been read is what the buffer holds.
    unfold Entry.result
    rw [peekSequence_eq]
    by_cases hheader : headerSize ≤ c.buffer.length
    · have hword : c.buffer.wordAt 12 = s.wordAt (place + 12) := by
        unfold headerSize at hheader
        rw [← Octets.wordAt_drop, hstream, Octets.wordAt_append (by omega)]
      rw [if_pos hheader, hword]
      simp only [Nat.add_le_add_iff_left, hheader, if_true]
    · rw [if_neg hheader]
      simp only [Nat.add_le_add_iff_left, hheader, if_false]

/-- A buffer without a whole frame, all that there is, is where the pass ends. -/
theorem pass_of_rest {c : Connection} (hplace : place ≤ s.length)
    (hstream : s.drop place = c.buffer) (htake : c.take = none) :
    pass c.largest s place = [if c.buffer.isEmpty then .closed else .reset] := by
  have hcount : s.length - place = c.buffer.length := by rw [← List.length_drop, hstream]
  have hchecked := Frame.checked c.largest c.buffer
  generalize hcheck : Frame.check c.largest c.buffer = verdict at hchecked
  rw [← hstream] at hchecked
  cases hchecked with
  | unstated hstated =>
    rw [pass_of_unstated hstated]
    have hend : s.length ≤ place ↔ c.buffer.isEmpty = true := by
      rw [List.isEmpty_iff_length_eq_zero]
      omega
    simp only [hend]
  | short hstated hbounds hlength =>
    rw [hstream] at hlength
    -- There is a length, so there are octets, and the stream ends within a frame.
    have hsome : ¬ c.buffer.isEmpty = true := by
      intro hempty
      rw [List.isEmpty_iff] at hempty
      rw [hstream, hempty] at hstated
      cases hstated
    rw [if_neg hsome]
    exact pass_of_short hstated hbounds (by omega)
  -- On both of the others there is something to take.
  | impossible hstated hbounds =>
    unfold take at htake
    rw [hcheck] at htake
    cases htake
  | whole hstated hbounds hlength =>
    unfold take at htake
    rw [hcheck] at htake
    dsimp only at htake
    split at htake
    · cases htake
    · split at htake
      · cases htake
      · cases htake

/-- **One read goes one entry on**, unless it has to wait. -/
theorem readStep {c : Connection} {future : Octets} (hplace : place ≤ s.length)
    (hstream : s.drop place = c.buffer ++ c.arrived ++ future)
    (hending : c.ending = .none ∨ c.ending = .eof ∧ future = []) : ReadStep s place c c.read := by
  cases htake : c.take with
  | some r =>
    rw [List.append_assoc] at hstream
    rw [read_of_take htake]
    exact readStep_of_take hstream htake
  | none =>
    -- Now what has arrived is read too; the connection holds the same octets as before.
    have hheld : c.fetched.buffer ++ c.fetched.arrived = c.buffer ++ c.arrived :=
      List.append_nil _
    cases htake' : c.fetched.take with
    | some r =>
      rw [read_of_fetched htake htake']
      have hstep : ReadStep s place c.fetched r := readStep_of_take hstream htake'
      cases hstep with
      | waits hlargest hending hopen hheld' =>
        exact .waits hlargest hending hopen (hheld'.trans hheld)
      | passes hpass hresult hgoes hlargest hending hn hheld' =>
        rw [hheld] at hn hheld'
        exact .passes hpass hresult hgoes hlargest hending hn hheld'
      | ends hpass hresult hstops hpending hheld' =>
        exact .ends hpass hresult hstops hpending (hheld'.trans hheld)
    | none =>
      rw [read_of_rest htake htake']
      obtain hopen | ⟨heof, rfl⟩ := hending
      · have hrest : c.fetched.rest = .pending := by
          unfold rest
          rw [show c.fetched.ending = .none from hopen]
        rw [hrest]
        exact .waits rfl rfl hopen hheld
      · rw [List.append_nil] at hstream
        have hpass : pass c.largest s place =
            [if c.fetched.buffer.isEmpty then .closed else .reset] :=
          pass_of_rest (c := c.fetched) hplace hstream htake'
        have hrest : c.fetched.rest =
            if c.fetched.buffer.isEmpty then .closed else .error .reset := by
          unfold rest
          rw [show c.fetched.ending = .eof from heof]
        rw [hrest]
        by_cases hempty : c.fetched.buffer.isEmpty = true
        · rw [if_pos hempty] at hpass ⊢
          exact .ends hpass rfl rfl (fun h => nomatch h) hheld
        · rw [if_neg hempty] at hpass ⊢
          exact .ends hpass rfl rfl (fun h => nomatch h) hheld

end Step

/-! ### Runs -/

/-- A row of readings is what a row of entries stands for. -/
def Agrees (s : Octets) (entries : List Entry) (readings : List Reading) : Prop :=
  List.Forall₂ (fun entry reading => reading.result = entry.result s reading.arrived) entries
    readings

section Runs

variable {s : Octets}

/-- How many octets have been read is what has come less what waits. -/
theorem arrived_eq {d c : Connection} {place received : Nat}
    (hreceived : received = place + (c.buffer ++ c.arrived).length)
    (hheld : d.buffer ++ d.arrived = c.buffer ++ c.arrived) :
    received - d.arrived.length = place + d.buffer.length := by
  rw [← hheld, List.length_append] at hreceived
  omega

/-- What stands behind a passed frame is what the connection goes on with. -/
theorem stream_of_passed {d c : Connection} {place n : Nat} {future : Octets}
    (hstream : s.drop place = c.buffer ++ c.arrived ++ future)
    (hn : n ≤ (c.buffer ++ c.arrived).length)
    (hheld : d.buffer ++ d.arrived = (c.buffer ++ c.arrived).drop n) :
    s.drop (place + n) = d.buffer ++ d.arrived ++ future := by
  rw [← List.drop_drop, hstream, List.drop_append_of_le_length hn, hheld]

theorem received_of_passed {d c : Connection} {place n received : Nat}
    (hreceived : received = place + (c.buffer ++ c.arrived).length)
    (hn : n ≤ (c.buffer ++ c.arrived).length)
    (hheld : d.buffer ++ d.arrived = (c.buffer ++ c.arrived).drop n) :
    received = place + n + (d.buffer ++ d.arrived).length := by
  rw [hheld, List.length_drop]
  omega

theorem place_of_passed {c : Connection} {place n : Nat} {future : Octets}
    (hplace : place ≤ s.length) (hstream : s.drop place = c.buffer ++ c.arrived ++ future)
    (hn : n ≤ (c.buffer ++ c.arrived).length) : place + n ≤ s.length := by
  have hcount : s.length - place = (c.buffer ++ c.arrived).length + future.length := by
    rw [← List.length_drop, hstream, List.length_append]
  omega

/-- **After the client has stopped, the reads say what the pass says of the rest.** -/
theorem readingsToEnd_agree {c : Connection} {place received : Nat} (hplace : place ≤ s.length)
    (hstream : s.drop place = c.buffer ++ c.arrived)
    (hreceived : received = place + (c.buffer ++ c.arrived).length) (heof : c.ending = .eof) :
    Agrees s (pass c.largest s place) (readingsToEnd received c) := by
  -- On what the connection holds, which every read that goes on makes less.
  induction hsize : c.size using Nat.strongRecOn generalizing c place with
  | ind size ih =>
    subst hsize
    have hstream' : s.drop place = c.buffer ++ c.arrived ++ [] := by rw [hstream, List.append_nil]
    have hstep := readStep hplace hstream' (.inr ⟨heof, rfl⟩)
    have hless := (size_read c).2
    unfold readingsToEnd
    generalize c.read = r at hstep hless
    cases hstep with
    | waits hlargest hending hopen hheld =>
      rw [heof] at hopen
      cases hopen
    | passes hpass hresult hgoes hlargest hending hn hheld =>
      have hrest := stream_of_passed hstream' hn hheld
      rw [List.append_nil] at hrest
      rw [hpass, if_pos hgoes, ← hlargest]
      refine .cons (hresult _).symm ?_
      exact ih _ (hless hgoes) (place_of_passed hplace hstream' hn) hrest
        (received_of_passed hreceived hn hheld) (hending.trans heof) rfl
    | ends hpass hresult hstops hpending hheld =>
      rw [hpass, if_neg (by rw [hstops]; exact Bool.false_ne_true)]
      refine .cons ?_ .nil
      rw [arrived_eq hreceived hheld]
      exact hresult.symm

/-- **While octets arrive, the reads say what the pass says of the stream from here on.** -/
theorem readings_agree_from {c : Connection} {place received : Nat} (turns : List Turn)
    (hplace : place ≤ s.length)
    (hstream : s.drop place = c.buffer ++ c.arrived ++ stream turns)
    (hreceived : received = place + (c.buffer ++ c.arrived).length) (hopen : c.ending = .none) :
    Agrees s (pass c.largest s place) (readings received c turns) := by
  -- On the turns: the place moves with each read that goes on, and the count of what has been
  -- received with each arrival, so that the rest of the stream is always what is held and what is
  -- to come.
  induction turns generalizing c place received with
  | nil =>
    rw [stream, List.append_nil] at hstream
    exact readingsToEnd_agree (c := { c with ending := .eof }) hplace hstream hreceived rfl
  | cons turn turns ih =>
    cases turn with
    | arrive bs =>
      -- What arrives is on the same stream, now on this side of the turns.
      refine ih (c := c.receive bs) hplace ?_ ?_ hopen
      · rw [hstream, stream, receive, List.append_assoc, List.append_assoc, List.append_assoc]
      · change received + bs.length = place + (c.buffer ++ (c.arrived ++ bs)).length
        have hlength : (c.buffer ++ c.arrived ++ bs).length =
            (c.buffer ++ c.arrived).length + bs.length := List.length_append
        rw [hreceived, ← List.append_assoc, hlength, Nat.add_assoc]
    | read =>
      have hstep := readStep hplace hstream (.inl hopen)
      unfold readings
      generalize c.read = r at hstep
      rw [stream] at hstream
      cases hstep with
      | waits hlargest hending hopen hheld =>
        -- A read that waits has no reading of its own, and none is asked of the pass.
        rw [if_pos rfl, ← hlargest]
        rw [← hheld] at hstream hreceived
        exact ih hplace hstream hreceived (hending.trans hopen)
      | @passes d r n entry hpass hresult hgoes hlargest hending hn hheld =>
        have hpending : r ≠ .pending := by
          rintro rfl
          cases hgoes
        rw [hpass, if_neg hpending, if_pos hgoes, ← hlargest]
        refine .cons (hresult _).symm ?_
        exact ih (place_of_passed hplace hstream hn) (stream_of_passed hstream hn hheld)
          (received_of_passed hreceived hn hheld) (hending.trans hopen)
      | ends hpass hresult hstops hpending hheld =>
        -- The pass has one entry left, and it is this one.
        rw [hpass, if_neg hpending, if_neg (by rw [hstops]; exact Bool.false_ne_true)]
        refine .cons ?_ .nil
        rw [arrived_eq hreceived hheld]
        exact hresult.symm

end Runs

/-- **Frames do not depend on how a stream is cut.** However a stream is cut into pieces, and
however the reads are spread over their arrival, what is read from the connection until the end is
what one pass over the stream finds, entry by entry. -/
theorem readings_agree (largest : Nat) (turns : List Turn) :
    Agrees (stream turns) (pass largest (stream turns) 0) (readings 0 { largest } turns) :=
  readings_agree_from (c := { largest }) turns (Nat.zero_le _) rfl rfl rfl

/-- A length that cannot be, at the front of a header with the sequence number 77: whether the
number is reported depends on where the header is cut. -/
example :
    let header : Octets := [0, 0, 0, 5, 0, 0, 0, 21, 0, 0, 0, 0, 0, 0, 0, 77]
    let cause : WireError := .invalidLength 5 16 65536
    readings 0 ⟨65536, [], [], .none⟩ [.arrive header, .read] =
        [⟨.error (.framing (some 77) cause), 16⟩] ∧
      readings 0 ⟨65536, [], [], .none⟩ [.arrive (header.take 4), .read, .arrive (header.drop 4)] =
        [⟨.error (.framing none cause), 4⟩] := by
  decide +kernel

end Smpp.Connection
