import Smpp.Time

/-!
# Agendas

What is going to happen, each thing at its instant, in the order in which it happens: by time, and
what falls on the same instant in the order in which it was entered. A clock that goes from one
instant that matters to the next one always moves forward (`Instant.lt_of_earliest_filter`).
-/

namespace Smpp

/-- Things that are going to happen, in order. -/
structure Agenda (α : Type) where
  entries : List (Instant × α) := []

namespace Agenda

variable {α : Type}

/-- Enters a thing behind everything that happens no later. -/
def insert (a : Agenda α) (instant : Instant) (thing : α) : Agenda α :=
  ⟨a.entries.takeWhile (·.1 ≤ instant) ++ (instant, thing) :: a.entries.dropWhile (·.1 ≤ instant)⟩

/-- Enters a thing that happens at an instant or not at all. -/
def insert? (a : Agenda α) (instant : Option Instant) (thing : α) : Agenda α :=
  match instant with
  | some t => a.insert t thing
  | none => a

/-- When the first thing happens. -/
def next? (a : Agenda α) : Option Instant := a.entries.head?.map Prod.fst

/-- Takes out what happens up to an instant. -/
def takeDue (a : Agenda α) (now : Instant) : List α × Agenda α :=
  ((a.entries.takeWhile (·.1 ≤ now)).map Prod.snd, ⟨a.entries.dropWhile (·.1 ≤ now)⟩)

end Agenda

/-- The earliest of some instants. -/
def Instant.earliest : List Instant → Option Instant
  | [] => none
  | t :: ts =>
    match earliest ts with
    | none => some t
    | some u => some (min t u)

/-- The earliest of some instants is one of them. -/
theorem Instant.mem_of_earliest {ts : List Instant} {t : Instant}
    (h : Instant.earliest ts = some t) : t ∈ ts := by
  induction ts generalizing t with
  | nil => cases h
  | cons u ts ih =>
    unfold Instant.earliest at h
    split at h
    · cases h
      exact List.mem_cons_self
    · next v hv =>
      cases h
      obtain hmin | hmin := Nat.le_total u v
      · rw [Nat.min_eq_left hmin]
        exact List.mem_cons_self
      · rw [Nat.min_eq_right hmin]
        exact List.mem_cons_of_mem _ (ih hv)

/-- No instant of some is earlier than the earliest. -/
theorem Instant.earliest_le {ts : List Instant} {u : Instant} (hu : u ∈ ts) :
    ∃ t, Instant.earliest ts = some t ∧ t ≤ u := by
  induction ts with
  | nil => cases hu
  | cons v ts ih =>
    rw [Instant.earliest]
    obtain rfl | hu := List.mem_cons.1 hu
    · cases Instant.earliest ts with
      | none => exact ⟨_, rfl, Nat.le_refl _⟩
      | some t => exact ⟨_, rfl, Nat.min_le_left _ _⟩
    · obtain ⟨t, ht, htu⟩ := ih hu
      rw [ht]
      exact ⟨_, rfl, Nat.le_trans (Nat.min_le_right _ _) htu⟩

/-- The earliest of the instants later than now is later than now. -/
theorem Instant.lt_of_earliest_filter {now t : Instant} {ts : List Instant}
    (h : Instant.earliest (ts.filter (now < ·)) = some t) : now < t :=
  of_decide_eq_true (List.mem_filter.1 (Instant.mem_of_earliest h)).2

end Smpp
