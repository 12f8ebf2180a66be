import Smpp.Proofs.Wire.Writers

/-!
# The parameters as a map in the order of arrival

The parameters of a body are a plain list that is searched from its front. What makes it a map is
that each operation finds a tag in one place at most and leaves the others where they are. This
module says what a map is after any sequence of operations, from the sequence alone and without a
look at the list.

A sequence of actions is read as a *history* of changes (`Action.changes`): a value is put under a
tag, a tag is dropped, or all are. Reading a region drops all and puts the parameters of the region
in the order in which they come. Then

* the value of a tag is the last that was put under it, unless it was dropped since (`Held`);
* a tag *arrives* where a value is put under it while it has none (`Arrived`), and the tags that are
  there stand in the order of their arrivals.

`Recounts` says so of a map and a history, and `recounts_change` that one more change keeps it.
-/

namespace Smpp

namespace Parameters

variable {m : Parameters} {tag other : UInt16} {value : Octets}

/-! ### One operation -/

theorem find?_put (tag other : UInt16) (value : Octets) (ps : List Parameter) :
    (put tag value ps).find? (·.tag == other) =
      if other = tag then some ⟨tag, value⟩ else ps.find? (·.tag == other) := by
  induction ps with
  | nil =>
    by_cases h : other = tag
    · simp [put, h]
    · simp [put, h, Ne.symm h]
  | cons p ps ih =>
    by_cases hp : p.tag = tag
    · -- The entry of the tag is replaced, and is no entry of another tag either way.
      by_cases h : other = tag
      · simp [put, hp, h]
      · simp [put, hp, h, Ne.symm h]
    · by_cases h : p.tag = other
      · have hother : other ≠ tag := fun heq => hp (h.trans heq)
        simp [put, h, hother]
      · simp [put, hp, h, ih]

theorem get?_insert (m : Parameters) (tag other : UInt16) (value : Octets) :
    (m.insert tag value).get? other = if other = tag then some value else m.get? other := by
  have hfind := find?_put tag other value m.entries
  unfold get? insert
  dsimp only
  rw [hfind]
  split <;> rfl

theorem get?_erase (m : Parameters) (tag other : UInt16) :
    (m.erase tag).get? other = if other = tag then none else m.get? other := by
  unfold get? erase
  dsimp only
  rw [List.find?_filter]
  split
  · next h =>
    have hnone : m.entries.find? (fun p => decide ((p.tag != tag) = true ∧ (p.tag == other) = true))
        = none := by
      rw [List.find?_eq_none]
      rintro p -
      simp [h]
    rw [hnone]
    rfl
  · next h =>
    congr 2
    funext p
    by_cases hp : p.tag = other
    · simp [hp, h]
    · simp [hp]

theorem tags_insert (m : Parameters) (tag : UInt16) (value : Octets) :
    (m.insert tag value).tags = if tag ∈ m.tags then m.tags else m.tags ++ [tag] :=
  map_tag_put tag value m.entries

theorem tags_erase (m : Parameters) (tag : UInt16) : (m.erase tag).tags = m.tags.erase tag := by
  have hnodup : m.tags.Nodup := m.distinct
  rw [hnodup.erase_eq_filter, tags, tags, erase, List.filter_map]
  rfl

/-- What is taken out is the first entry with the tag. -/
theorem entries_erase (m : Parameters) (tag : UInt16) :
    (m.erase tag).entries = m.entries.eraseP (·.tag == tag) := by
  have hnodup := m.distinct
  change m.entries.filter _ = _
  generalize m.entries = ps at hnodup ⊢
  induction ps with
  | nil => rfl
  | cons p ps ih =>
    rw [List.map_cons, List.nodup_cons] at hnodup
    by_cases h : p.tag = tag
    · have hrest : ∀ q ∈ ps, (q.tag != tag) = true := by
        intro q hq
        rw [bne_iff_ne]
        intro hqtag
        exact hnodup.1 (List.mem_map.2 ⟨q, hq, hqtag.trans h.symm⟩)
      simp [h, List.filter_eq_self.2 hrest]
    · simp [h, ih hnodup.2]

theorem mem_tags_iff : tag ∈ m.tags ↔ ∃ value, m.get? tag = some value := by
  unfold tags get?
  simp only [List.mem_map, Option.map_eq_some_iff]
  refine ⟨?_, ?_⟩
  · rintro ⟨p, hp, htag⟩
    obtain ⟨q, hq⟩ := Option.isSome_iff_exists.1
      (List.find?_isSome (p := (·.tag == tag)).2 ⟨p, hp, beq_iff_eq.2 htag⟩)
    exact ⟨q.value, q, hq, rfl⟩
  · rintro ⟨value, q, hq, -⟩
    have htag : (q.tag == tag) = true := List.find?_some (p := fun q : Parameter => q.tag == tag) hq
    exact ⟨q, List.mem_of_find?_eq_some hq, beq_iff_eq.1 htag⟩

/-- The size of a map is the number of octets of its region. -/
theorem length_region (m : Parameters) : (region m.entries).length = m.encodedSize := by
  unfold encodedSize
  induction m.entries with
  | nil => rfl
  | cons p ps ih =>
    have hp : p.octets.length = p.size := by
      rw [Parameter.size, ← List.append_nil p.octets, Parameter.octets_append]
      simp only [List.length_cons, List.append_nil]
      omega
    rw [region_cons, List.length_append, ih, List.foldr_cons, hp]

/-! ### The parameters in a region -/

/-- The parameters in a region, in the order in which they come. -/
def rowOf : Octets → List Parameter
  | t :: t' :: l :: l' :: rest =>
    ⟨Octets.word16 t t', rest.take (Octets.word16 l l').toNat⟩ ::
      rowOf (rest.drop (Octets.word16 l l').toNat)
  | _ => []
  termination_by bs => bs.length
  decreasing_by
    simp only [List.length_drop, List.length_cons]
    omega

/-- The parameters in the region of a row are the row. -/
theorem rowOf_region {ps : List Parameter} (h : RowFits ps) : rowOf (region ps) = ps := by
  induction ps with
  | nil => simp [rowOf]
  | cons p ps ih =>
    obtain ⟨hp, hps⟩ := rowFits_cons.1 h
    rw [region_cons, Parameter.octets_append, rowOf, Octets.word16_octets, Octets.word16_octets,
      hp.toNat_length, List.drop_left, List.take_left, ih hps]

/-! ### Actions and histories -/

/-- What is done to a map. -/
inductive Action where
  | insert (tag : UInt16) (value : Octets)
  | insertOctet (tag : UInt16) (value : UInt8)
  | insertWord (tag value : UInt16)
  | erase (tag : UInt16)
  /-- The map is replaced by the one that is read from a region, if one is. -/
  | read (region : Octets)

/-- The map after an action. -/
def act (m : Parameters) : Action → Parameters
  | .insert tag value => m.insert tag value
  | .insertOctet tag value => m.insertOctet tag value
  | .insertWord tag value => m.insertWord tag value
  | .erase tag => m.erase tag
  | .read region =>
    match Parameters.read region with
    | .ok m' _ => m'
    | .error _ _ => m

/-- The map after some actions, from the empty one. -/
def after (actions : List Action) : Parameters := actions.foldl act empty

/-- The tag that an action is about, if it is about one. -/
def Action.tag? : Action → Option UInt16
  | insert tag _ | insertOctet tag _ | insertWord tag _ | erase tag => some tag
  | read _ => none

/-- What may change in a map. -/
inductive Change where
  | put (tag : UInt16) (value : Octets)
  | drop (tag : UInt16)
  | dropAll

/-- What an action changes, in order. -/
def Action.changes : Action → List Change
  | insert tag value => [.put tag value]
  | insertOctet tag value => [.put tag [value]]
  | insertWord tag value => [.put tag (Octets.ofWord16 value)]
  | erase tag => [.drop tag]
  | read region =>
    match Parameters.read region with
    | .ok _ _ => .dropAll :: (rowOf region).map fun p => .put p.tag p.value
    | .error _ _ => []

/-- A change leaves a tag without a value. -/
def Change.Drops (tag : UInt16) : Change → Prop
  | put _ _ => False
  | drop t => t = tag
  | dropAll => True

/-- A change gives a tag a value, or leaves it without one. -/
def Change.Concerns (tag : UInt16) : Change → Prop
  | put t _ => t = tag
  | drop t => t = tag
  | dropAll => True

/-- A value is the last that was put under a tag, and nothing dropped the tag since. -/
def Held (history : List Change) (tag : UInt16) (value : Octets) : Prop :=
  ∃ before after, history = before ++ .put tag value :: after ∧ ∀ c ∈ after, ¬ c.Concerns tag

/-- The change at a place of a history put a value under a tag that had none, and nothing dropped
the tag since. -/
def Arrived (history : List Change) (tag : UInt16) (place : Nat) : Prop :=
  ∃ before value after, history = before ++ .put tag value :: after ∧ before.length = place ∧
    (∀ v, ¬ Held before tag v) ∧ ∀ c ∈ after, ¬ c.Drops tag

section Histories

variable {history : List Change} {c : Change} {place : Nat}

/-- A split of a history around one of its changes, when one more change comes. -/
theorem snoc_eq_append_cons_iff {α : Type} {xs before after : List α} {x y : α} :
    xs ++ [x] = before ++ y :: after ↔
      (after = [] ∧ xs = before ∧ x = y) ∨
        ∃ rest, after = rest ++ [x] ∧ xs = before ++ y :: rest := by
  refine ⟨?_, ?_⟩
  · intro h
    rcases List.eq_nil_or_concat after with rfl | ⟨rest, z, rfl⟩
    · obtain ⟨hxs, hx⟩ := List.append_inj' h rfl
      exact .inl ⟨rfl, hxs, List.singleton_inj.1 hx⟩
    · rw [List.concat_eq_append, ← List.cons_append, ← List.append_assoc] at h
      rw [List.concat_eq_append]
      obtain ⟨hxs, hx⟩ := List.append_inj' h rfl
      rw [List.singleton_inj.1 hx]
      exact .inr ⟨rest, rfl, hxs⟩
  · rintro (⟨rfl, rfl, rfl⟩ | ⟨rest, rfl, rfl⟩)
    · rfl
    · simp

theorem not_held_nil : ¬ Held [] tag value := by
  rintro ⟨before, after, h, -⟩
  exact List.append_ne_nil_of_right_ne_nil _ (List.cons_ne_nil _ _) h.symm

theorem not_arrived_nil : ¬ Arrived [] tag place := by
  rintro ⟨before, value, after, h, -⟩
  exact List.append_ne_nil_of_right_ne_nil _ (List.cons_ne_nil _ _) h.symm

/-- **What is held after one more change** is what that put, or was held and is not concerned. -/
theorem held_snoc_iff :
    Held (history ++ [c]) tag value ↔
      c = .put tag value ∨ (Held history tag value ∧ ¬ c.Concerns tag) := by
  refine ⟨?_, ?_⟩
  · rintro ⟨before, after, heq, hafter⟩
    rcases snoc_eq_append_cons_iff.1 heq with ⟨-, -, hc⟩ | ⟨rest, rfl, rfl⟩
    · exact .inl hc
    · rw [List.forall_mem_append, List.forall_mem_singleton] at hafter
      exact .inr ⟨⟨before, rest, rfl, hafter.1⟩, hafter.2⟩
  · rintro (rfl | ⟨⟨before, rest, rfl, hrest⟩, hc⟩)
    · exact ⟨history, [], rfl, fun _ hx => absurd hx List.not_mem_nil⟩
    · refine ⟨before, rest ++ [c], by simp, ?_⟩
      rw [List.forall_mem_append, List.forall_mem_singleton]
      exact ⟨hrest, hc⟩

/-- **What has arrived after one more change** arrives with it, or had arrived and is not
dropped. -/
theorem arrived_snoc_iff :
    Arrived (history ++ [c]) tag place ↔
      (place = history.length ∧ (∃ value, c = .put tag value) ∧ ∀ v, ¬ Held history tag v) ∨
        (Arrived history tag place ∧ ¬ c.Drops tag) := by
  refine ⟨?_, ?_⟩
  · rintro ⟨before, value, after, heq, rfl, hnew, hafter⟩
    rcases snoc_eq_append_cons_iff.1 heq with ⟨-, rfl, rfl⟩ | ⟨rest, rfl, rfl⟩
    · exact .inl ⟨rfl, ⟨value, rfl⟩, hnew⟩
    · rw [List.forall_mem_append, List.forall_mem_singleton] at hafter
      exact .inr ⟨⟨before, value, rest, rfl, rfl, hnew, hafter.1⟩, hafter.2⟩
  · rintro (⟨rfl, ⟨value, rfl⟩, hnew⟩ | ⟨⟨before, value, rest, rfl, rfl, hnew, hrest⟩, hc⟩)
    · exact ⟨history, value, [], rfl, rfl, hnew, fun _ hx => absurd hx List.not_mem_nil⟩
    · refine ⟨before, value, rest ++ [c], by simp, rfl, hnew, ?_⟩
      rw [List.forall_mem_append, List.forall_mem_singleton]
      exact ⟨hrest, hc⟩

theorem Arrived.lt (h : Arrived history tag place) : place < history.length := by
  obtain ⟨before, value, after, rfl, rfl, -⟩ := h
  rw [List.length_append, List.length_cons]
  omega

end Histories

/-! ### A map and its history -/

/-- The map after a change. -/
def change (m : Parameters) : Change → Parameters
  | .put tag value => m.insert tag value
  | .drop tag => m.erase tag
  | .dropAll => empty

/-- What a history says of a map. -/
structure Recounts (history : List Change) (m : Parameters) : Prop where
  /-- The values are those that are held. -/
  value : ∀ tag value, m.get? tag = some value ↔ Held history tag value
  /-- The tags are those that have arrived and were not dropped. -/
  present : ∀ tag, tag ∈ m.tags ↔ ∃ place, Arrived history tag place
  /-- The tags stand in the order in which they arrived. -/
  order : m.tags.Pairwise fun a b =>
    ∀ i j, Arrived history a i → Arrived history b j → i < j

theorem recounts_empty : Recounts [] empty where
  value _ _ := iff_of_false (fun h => (nomatch h)) not_held_nil
  present _ := iff_of_false List.not_mem_nil fun ⟨_, h⟩ => not_arrived_nil h
  order := List.Pairwise.nil

section OneChange

variable {history : List Change} {c : Change} {place : Nat}

theorem Change.concerns_iff : c.Concerns tag ↔ c.Drops tag ∨ ∃ value, c = .put tag value := by
  cases c with
  | put t value =>
    refine ⟨?_, ?_⟩
    · rintro rfl
      exact .inr ⟨value, rfl⟩
    · rintro (hdrops | ⟨_, hput⟩)
      · cases hdrops
      · exact (Change.put.inj hput).1
  | drop t => exact ⟨.inl, fun h => h.elim id fun ⟨_, h⟩ => (nomatch h)⟩
  | dropAll => exact iff_of_true trivial (.inl trivial)

theorem get?_change_eq_some_iff :
    (m.change c).get? tag = some value ↔
      c = .put tag value ∨ (m.get? tag = some value ∧ ¬ c.Concerns tag) := by
  cases c with
  | put t v =>
    rw [change, get?_insert]
    by_cases h : tag = t
    · simp [h, Change.Concerns]
    · simp [h, Ne.symm h, Change.Concerns]
  | drop t =>
    rw [change, get?_erase]
    by_cases h : tag = t
    · simp [h, Change.Concerns]
    · simp [h, Ne.symm h, Change.Concerns]
  | dropAll => simp [change, Change.Concerns, empty, get?]

theorem mem_tags_change_iff :
    tag ∈ (m.change c).tags ↔ (∃ value, c = .put tag value) ∨ (tag ∈ m.tags ∧ ¬ c.Drops tag) := by
  simp only [mem_tags_iff, get?_change_eq_some_iff, exists_or, exists_and_right,
    Change.concerns_iff, not_or]
  -- A tag that is put is there either way.
  by_cases hput : ∃ value, c = .put tag value
  · simp only [hput, true_or]
  · simp only [hput, false_or, not_false_eq_true, and_true]

theorem Recounts.not_held_iff (h : Recounts history m) :
    (∀ v, ¬ Held history tag v) ↔ tag ∉ m.tags := by
  rw [mem_tags_iff, not_exists]
  exact forall_congr' fun v => not_congr (h.value tag v).symm

/-- A tag that is there has arrived already. -/
theorem Recounts.arrived_of_mem (h : Recounts history m) (htag : tag ∈ m.tags)
    (harrived : Arrived (history ++ [c]) tag place) : Arrived history tag place := by
  rcases arrived_snoc_iff.1 harrived with ⟨-, -, hnew⟩ | ⟨hold, -⟩
  · exact absurd htag (h.not_held_iff.1 hnew)
  · exact hold

/-- The tags that a change leaves stand in the order in which they arrived. -/
theorem Recounts.pairwise_of_sublist (h : Recounts history m) {tags : List UInt16}
    (htags : tags.Sublist m.tags) :
    tags.Pairwise fun a b =>
      ∀ i j, Arrived (history ++ [c]) a i → Arrived (history ++ [c]) b j → i < j := by
  refine (h.order.sublist htags).imp_of_mem ?_
  intro a b ha hb hlt i j hi hj
  exact hlt i j (h.arrived_of_mem (htags.subset ha) hi) (h.arrived_of_mem (htags.subset hb) hj)

/-- **One more change**: a map that its history recounts is recounted with the change. -/
theorem Recounts.change (h : Recounts history m) (c : Change) :
    Recounts (history ++ [c]) (m.change c) := by
  refine ⟨fun t v => ?_, fun t => ?_, ?_⟩
  · rw [get?_change_eq_some_iff, held_snoc_iff, h.value]
  · -- A tag that is put arrives now, or had arrived before.
    rw [mem_tags_change_iff]
    simp only [arrived_snoc_iff, h.not_held_iff, exists_or, exists_and_right, exists_eq,
      true_and, ← h.present]
    by_cases hput : ∃ value, c = .put t value
    · have hdrops : ¬ c.Drops t := by
        obtain ⟨value, rfl⟩ := hput
        exact id
      simp only [hput, hdrops, true_and, true_or, true_iff, not_false_eq_true, and_true]
      exact (em (t ∈ m.tags)).symm
    · simp only [hput, false_and, false_or]
  · cases c with
    | put t v =>
      rw [Parameters.change, tags_insert]
      split
      · exact h.pairwise_of_sublist (List.Sublist.refl _)
      · next hnew =>
        refine List.pairwise_append.2 ⟨h.pairwise_of_sublist (List.Sublist.refl _),
          List.pairwise_singleton _ _, ?_⟩
        intro a ha b hb i j hi hj
        rw [List.mem_singleton.1 hb] at hj
        -- The new tag arrives with the change, after all that has arrived before.
        have hlt : i < history.length := (h.arrived_of_mem ha hi).lt
        rcases arrived_snoc_iff.1 hj with ⟨rfl, -⟩ | ⟨hold, -⟩
        · exact hlt
        · exact absurd ((h.present t).2 ⟨j, hold⟩) hnew
    | drop t =>
      rw [Parameters.change, tags_erase]
      exact h.pairwise_of_sublist List.erase_sublist
    | dropAll => exact List.Pairwise.nil

theorem Recounts.changes (h : Recounts history m) (changes : List Change) :
    Recounts (history ++ changes) (changes.foldl Parameters.change m) := by
  induction changes generalizing history m with
  | nil => simpa using h
  | cons c changes ih =>
    rw [List.append_cons]
    exact ih (h.change c)

end OneChange

/-! ### Runs of actions -/

theorem insertAll_eq_foldl_change (m : Parameters) (ps : List Parameter) :
    m.insertAll ps = (ps.map fun p => Change.put p.tag p.value).foldl change m := by
  rw [List.foldl_map]
  rfl

/-- **An action does what its changes do**, one after another. -/
theorem act_eq (m : Parameters) (a : Action) : m.act a = a.changes.foldl change m := by
  cases a with
  | read region =>
    cases hread : Parameters.read region with
    | ok m' left =>
      -- What was read is the region of a row, and the changes put the parameters of that row.
      obtain ⟨rfl, row, hrow, rfl, rfl⟩ := read_eq_ok_iff.1 hread
      simp only [act, Action.changes, hread, rowOf_region hrow, List.foldl_cons]
      exact insertAll_eq_foldl_change empty row
    | error e left => simp only [act, Action.changes, hread, List.foldl_nil]
  | _ => rfl

/-- **The map after some actions is what their changes recount.** -/
theorem recounts_after (actions : List Action) :
    Recounts (actions.flatMap Action.changes) (after actions) := by
  induction actions using List.reverseRecOn with
  | nil => exact recounts_empty
  | append_singleton actions a ih =>
    rw [after, List.foldl_append, List.flatMap_append, List.flatMap_singleton]
    change Recounts _ ((after actions).act a)
    rw [act_eq]
    exact ih.changes a.changes

/-- An action on a tag leaves the values of the others. -/
theorem get?_act_of_ne {a : Action} (htag : a.tag? = some tag) (hne : other ≠ tag) :
    (m.act a).get? other = m.get? other := by
  cases a with
  | read region => cases htag
  | erase t =>
    cases htag
    rw [act, get?_erase, if_neg hne]
  | _ =>
    cases htag
    exact (get?_insert m tag other _).trans (if_neg hne)

/-- A map whose values are short enough is written as the region of its entries. -/
theorem write_eq_ok {m : Parameters} (h : RowFits m.entries) (buffer : Octets) :
    m.write buffer = .ok () (buffer ++ region m.entries) := by
  have hmet : ∀ d ∈ m.entries.map Demand.parameter, d.Met := by
    intro d hd
    obtain ⟨p, hp, rfl⟩ := List.mem_map.1 hd
    exact h p hp
  exact (writes_all m.entries).ok hmet buffer

/-- **The parameters are a map in the order of arrival.** After any actions the tags are distinct,
each tag has the value that was put under it last and not dropped since, and the tags stand in the
order in which they came to have a value. An action on a tag leaves the values of the others; a tag
that has a value keeps its place when it gets another, a new one goes to the end, and one that is
taken out leaves the others in their order. Reading gives the map that comes of inserting the
parameters of a region one by one. A map of values whose lengths can be stated is written with as
many octets as its size says, and reads back as it is. -/
theorem insertion_ordered (actions : List Action) :
    let m := after actions
    let history := actions.flatMap Action.changes
    m.tags.Nodup ∧ Recounts history m ∧
      (∀ a tag other, a.tag? = some tag → other ≠ tag → (m.act a).get? other = m.get? other) ∧
      (∀ tag value, (m.insert tag value).tags = if tag ∈ m.tags then m.tags else m.tags ++ [tag]) ∧
      (∀ tag, (m.erase tag).tags = m.tags.erase tag ∧
        (m.erase tag).entries = m.entries.eraseP (·.tag == tag)) ∧
      (∀ octets m' left, read octets = .ok m' left ↔
        left = [] ∧ ∃ row, RowFits row ∧ octets = region row ∧ m' = ofList row) ∧
      ((∀ p ∈ m.entries, p.value.length ≤ 65535) →
        ∃ bs, bs.length = m.encodedSize ∧ (∀ buffer, m.write buffer = .ok () (buffer ++ bs)) ∧
          read bs = .ok m []) := by
  intro m history
  refine ⟨m.distinct, recounts_after actions, fun a tag other => get?_act_of_ne, m.tags_insert,
    fun tag => ⟨m.tags_erase tag, m.entries_erase tag⟩, fun octets m' left => read_eq_ok_iff,
    fun hshort => ?_⟩
  have hfits : RowFits m.entries := hshort
  refine ⟨region m.entries, m.length_region, write_eq_ok hfits, ?_⟩
  exact read_of_encode (encode_eq_ok_iff.2 ⟨hfits, rfl⟩)

/-- A tag that gets another value keeps its place, and one that was taken out comes back last. -/
example :
    (after [.insertWord 1 1000, .insert 2 [7], .insertWord 1 2000]).tags = [1, 2] ∧
      (after [.insertWord 1 1000, .insert 2 [7], .erase 1, .insertWord 1 2000]).tags = [2, 1] := by
  decide

end Parameters

end Smpp
