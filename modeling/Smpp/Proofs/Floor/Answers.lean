import Smpp.Proofs.Floor.Silence

/-!
# A station and the answers that it gets

A station depends on the rest of its floor only through the answers that its calls get. It keeps a
record of them, to which whatever it does only adds (`Station.Continues`), and a backend that gives
it the answers of the record makes of it what the backend has made of it that gave them in the first
place (`Station.play_prompted`). The idea is that of a prompter: `Station.Prompts` says that a
backend has, of two lists of answers, what the station has not been given so far.

A station that has done what there is to do at an instant is idle until its next wakeup
(`Station.Idle`), and to let it play in the meantime, as often as one likes, changes nothing
(`Station.Idle.play`).
-/

namespace Smpp

namespace Handler

variable {h : Handler} {now : Instant}

/-- A handler has nothing to do in a turn when it does not serve its client, or when it waits for
it. The clock does not come into it. -/
theorem turn_eq_none_iff : h.turn now = none ↔ (h.isServing = true → h.cancelled = false ∧
    h.engagement.completeNext = none ∧ h.connection.read.2 = .pending) := by
  have hturned := turned h now
  generalize h.turn now = r at hturned
  cases hturned with
  | idle hserving => simp [hserving]
  | obeys hserving hcancelled => simp [hserving, hcancelled]
  | completes hserving hcancelled hnext => simp [hserving, hnext]
  | reads hserving hcancelled hnext hread hresult => simp [hserving, hread, hresult]
  | waits hserving hcancelled hnext hread => simp [hcancelled, hnext, hread]

theorem completeNext_withSession (s : Session) :
    (h.withSession s).engagement.completeNext = none ↔ h.engagement.completeNext = none := by
  unfold Engagement.completeNext withSession
  dsimp only
  split <;> simp

/-- A look at the timers gives a handler nothing to do. -/
theorem turn_tick (hrests : h.turn now = none) (t : Instant) : (h.tick now).1.turn t = none := by
  rw [turn_eq_none_iff] at hrests ⊢
  have hlooked := looked h now
  generalize h.tick now = r at hlooked
  cases hlooked with
  | early => exact hrests
  | gone => exact fun hserving => nomatch hserving
  | silent => exact fun hserving => nomatch hserving
  | awake hserving =>
    obtain ⟨hcancelled, hnext, hread⟩ := hrests hserving
    exact fun _ => ⟨hcancelled, (completeNext_withSession _).2 hnext, hread⟩

end Handler

namespace Station

variable {now : Instant} {b c : Backend} {s s' : Station}

/-! ### Having nothing to do -/

/-- A station that has nothing to do before its next wakeup. -/
structure Idle (now : Instant) (s : Station) : Prop where
  turn : ∀ t, s.handler.turn t = none
  replies : ∀ t ∈ s.replies.next?, now < t
  timers : s.handler.isServing = true → now < s.handler.engagement.session.nextWakeup

/-- **A station that is idle stays as it is**, however often it plays. -/
theorem Idle.play (h : s.Idle now) (b : Backend) : s.play now b = (s, b) := by
  have hsettle : s.settle now b = (s, b) :=
    settle_of_none (step_eq_none_iff.2 ⟨h.turn now, h.replies⟩)
  have htick : s.handler.tick now = (s.handler, []) := by
    refine Handler.tick_of_early ?_
    cases hserving : s.handler.isServing with
    | false => exact .inl rfl
    | true => exact .inr (h.timers hserving)
  unfold Station.play
  rw [hsettle]
  dsimp only
  rw [htick]
  rfl

/-- A station is idle until its next wakeup. -/
theorem Idle.later {t : Instant} (h : s.Idle now) (ht : ∀ u ∈ s.wakeups, now < u → t < u) :
    s.Idle t where
  turn := h.turn
  replies := fun u hu => ht u (next_mem_wakeups hu) (h.replies u hu)
  timers := fun hserving => ht _ (nextWakeup_mem_wakeups hserving) (h.timers hserving)

/-- **A station that has played is idle**, if it waits for its timers. -/
theorem idle_play (now : Instant) (b : Backend) (s : Station)
    (htimers : (s.play now b).1.handler.isServing = true →
      now < (s.play now b).1.handler.engagement.session.nextWakeup) :
    (s.play now b).1.Idle now := by
  refine ⟨fun t => ?_, lt_next_play now b s, htimers⟩
  rw [(tells_play now b s).handler]
  exact Handler.turn_tick (turn_settle now b s) t

/-! ### The record of the answers -/

/-- What a station has on record of its answers has only been added to. -/
structure Records (s s' : Station) : Prop where
  binds : s.binds <+: s'.binds
  submits : s.submits <+: s'.submits

theorem Records.refl (s : Station) : Records s s := ⟨List.prefix_rfl, List.prefix_rfl⟩

theorem Records.trans {s'' : Station} (h : Records s s') (h' : Records s' s'') : Records s s'' :=
  ⟨h.binds.trans h'.binds, h.submits.trans h'.submits⟩

theorem records_perform (now : Instant) (p : Station × Backend) (e : Effect) :
    Records p.1 (perform now p e).1 := by
  obtain ⟨s, b⟩ := p
  cases e with
  | write | farewell | close => exact ⟨List.prefix_rfl, List.prefix_rfl⟩
  | submit => exact ⟨List.prefix_rfl, List.prefix_append _ _⟩
  | authenticate => exact ⟨List.prefix_append _ _, List.prefix_rfl⟩

theorem records_foldl (now : Instant) (es : List Effect) (p : Station × Backend) :
    Records p.1 (es.foldl (perform now) p).1 := by
  induction es generalizing p with
  | nil => exact .refl p.1
  | cons e es ih => exact (records_perform now p e).trans (ih _)

theorem records_performAll (now : Instant) (b : Backend) (s : Station)
    (r : Handler × List Effect) : Records s (s.performAll now b r).1 :=
  have hadded := records_foldl now r.2 ({ s with handler := r.1 }, b)
  ⟨hadded.binds, hadded.submits⟩

theorem records_hear (now : Instant) (b : Backend) (s : Station) (reply : Reply) :
    Records s (s.hear now b reply).1 := by
  cases reply with
  | submitted => exact ⟨List.prefix_rfl, List.prefix_rfl⟩
  | authenticated => exact records_performAll _ _ _ _

theorem records_of_step {p : Station × Backend} (h : s.step now b = some p) :
    Records s p.1 := by
  obtain ⟨r, -, rfl⟩ | ⟨t, reply, rest, -, rfl⟩ := step_cases h
  · exact records_performAll _ _ _ _
  · have hadded := records_hear now b { s with replies := ⟨rest⟩ } reply
    exact ⟨hadded.binds, hadded.submits⟩

theorem records_settle (now : Instant) (b : Backend) (s : Station) :
    Records s (s.settle now b).1 := by
  induction b, s using settle.induct now with
  | case1 b s hnone =>
    rw [settle_of_none hnone]
    exact .refl s
  | case2 b s s' b' hsome ih =>
    rw [settle_of_some hsome]
    exact (records_of_step hsome).trans ih

theorem records_play (now : Instant) (b : Backend) (s : Station) :
    Records s (s.play now b).1 :=
  (records_settle now b s).trans (records_performAll _ _ _ _)

/-- A station has gone on from another: what it has on record has only been added to, and what had
ended has said no more. -/
structure Continues (s s' : Station) : Prop extends Records s s' where
  ended : ∀ reason, s.reason? = some reason → s'.reason? = some reason ∧ s'.sent = s.sent

theorem Continues.refl (s : Station) : Continues s s := ⟨.refl s, fun _ h => ⟨h, rfl⟩⟩

theorem Continues.trans {s'' : Station} (h : Continues s s') (h' : Continues s' s'') :
    Continues s s'' := by
  refine ⟨h.toRecords.trans h'.toRecords, fun reason hended => ?_⟩
  obtain ⟨hended, hsent⟩ := h.ended reason hended
  obtain ⟨hended, hsent'⟩ := h'.ended reason hended
  exact ⟨hended, hsent'.trans hsent⟩

theorem continues_play (now : Instant) (b : Backend) (s : Station) :
    Continues s (s.play now b).1 :=
  ⟨records_play now b s, fun _ hended =>
    ⟨(runs_play now b s).reason? hended, (runs_play now b s).sent_of_ended hended⟩⟩

/-- What a handler is told from outside is not the end of it. -/
theorem continues_told {h : Handler} (hstage : h.stage = s.handler.stage) :
    Continues s { s with handler := h } :=
  ⟨⟨List.prefix_rfl, List.prefix_rfl⟩,
    fun _ hended => ⟨(Handler.reason?_eq hstage).trans hended, rfl⟩⟩

/-! ### Being prompted -/

section Prompts

variable {binds : List (Answer AuthResult)} {submits : List (Answer SubmitResult)}

/-- What a station has been answered so far begins two lists of answers. -/
structure Within (binds : List (Answer AuthResult)) (submits : List (Answer SubmitResult))
    (s : Station) : Prop where
  binds : s.binds <+: binds
  submits : s.submits <+: submits

theorem Records.within (h : Records s s') (hs' : s'.Within binds submits) :
    s.Within binds submits :=
  ⟨h.binds.trans hs'.binds, h.submits.trans hs'.submits⟩

/-- A backend answers what is left of two lists when a station has been given a part of them. -/
def Prompts (binds : List (Answer AuthResult)) (submits : List (Answer SubmitResult))
    (s : Station) (b : Backend) : Prop :=
  ∃ calls, b = .script ⟨binds.drop s.binds.length, submits.drop s.submits.length, calls⟩

/-- What comes next in a list is what comes next on the record. -/
theorem drop_of_prefix {α : Type} {l : List α} {a : α} {all : List α} (h : l ++ [a] <+: all) :
    all.drop l.length = a :: all.drop (l ++ [a]).length := by
  obtain ⟨rest, rfl⟩ := h
  rw [List.drop_left, List.append_assoc, List.drop_left]
  rfl

/-- **A backend that prompts a station** answers its calls as they were answered. -/
theorem prompted_perform (now : Instant) (e : Effect) {p q : Station × Backend} (hsame : q.1 = p.1)
    (hq : p.1.Prompts binds submits q.2)
    (hwithin : (perform now p e).1.Within binds submits) :
    (perform now q e).1 = (perform now p e).1 ∧
      (perform now p e).1.Prompts binds submits (perform now q e).2 := by
  obtain ⟨s, b⟩ := p
  obtain ⟨_, c⟩ := q
  dsimp only at hsame hq
  subst hsame
  obtain ⟨calls, rfl⟩ := hq
  cases e with
  | write bs => exact ⟨rfl, calls, rfl⟩
  | farewell bs => exact ⟨rfl, calls, rfl⟩
  | close => exact ⟨rfl, calls, rfl⟩
  | submit call submission =>
    -- The next answer that the prompter has is the one that comes to be on record.
    have hnext := drop_of_prefix hwithin.submits
    dsimp only [perform, Backend.submit, ScriptedBackend.submit]
    rw [hnext]
    exact ⟨rfl, _, rfl⟩
  | authenticate credentials =>
    have hnext := drop_of_prefix hwithin.binds
    dsimp only [perform, Backend.authenticate, ScriptedBackend.authenticate]
    rw [hnext]
    exact ⟨rfl, _, rfl⟩

theorem prompted_foldl (now : Instant) (es : List Effect) {p q : Station × Backend}
    (hsame : q.1 = p.1) (hq : p.1.Prompts binds submits q.2)
    (hwithin : (es.foldl (perform now) p).1.Within binds submits) :
    (es.foldl (perform now) q).1 = (es.foldl (perform now) p).1 ∧
      (es.foldl (perform now) p).1.Prompts binds submits (es.foldl (perform now) q).2 := by
  induction es generalizing p q with
  | nil => exact ⟨hsame, hq⟩
  | cons e es ih =>
    -- What is on record after the first effect is on record after all of them.
    have hfirst := (records_foldl now es (perform now p e)).within hwithin
    obtain ⟨hsame', hq'⟩ := prompted_perform now e hsame hq hfirst
    exact ih hsame' hq' hwithin

theorem prompted_performAll (now : Instant) (r : Handler × List Effect)
    (hc : s.Prompts binds submits c) (hwithin : (s.performAll now b r).1.Within binds submits) :
    (s.performAll now c r).1 = (s.performAll now b r).1 ∧
      (s.performAll now b r).1.Prompts binds submits (s.performAll now c r).2 :=
  prompted_foldl now r.2 (p := ({ s with handler := r.1 }, b)) (q := ({ s with handler := r.1 }, c))
    rfl hc hwithin

theorem prompted_hear (now : Instant) (reply : Reply) (hc : s.Prompts binds submits c)
    (hwithin : (s.hear now b reply).1.Within binds submits) :
    (s.hear now c reply).1 = (s.hear now b reply).1 ∧
      (s.hear now b reply).1.Prompts binds submits (s.hear now c reply).2 := by
  cases reply with
  | submitted call result => exact ⟨rfl, hc⟩
  | authenticated result => exact prompted_performAll now _ hc hwithin

theorem prompted_step {p : Station × Backend} (h : s.step now b = some p)
    (hc : s.Prompts binds submits c) (hwithin : p.1.Within binds submits) :
    ∃ c', s.step now c = some (p.1, c') ∧ p.1.Prompts binds submits c' := by
  unfold step at h ⊢
  split at h
  · next r hturn =>
    cases h
    obtain ⟨hsame, hprompts⟩ := prompted_performAll now r hc hwithin
    refine ⟨_, ?_, hprompts⟩
    exact congrArg some (Prod.ext hsame rfl)
  split at h
  · cases h
  next t reply rest hentries =>
  split at h
  · next hdue =>
    cases h
    obtain ⟨hsame, hprompts⟩ :=
      prompted_hear (s := { s with replies := ⟨rest⟩ }) now reply hc hwithin
    refine ⟨_, ?_, hprompts⟩
    rw [if_pos hdue]
    exact congrArg some (Prod.ext hsame rfl)
  · cases h

theorem prompted_settle (hc : s.Prompts binds submits c)
    (hwithin : (s.settle now b).1.Within binds submits) :
    (s.settle now c).1 = (s.settle now b).1 ∧
      (s.settle now b).1.Prompts binds submits (s.settle now c).2 := by
  -- On what the station has left to use up, as the settling itself.
  induction b, s using settle.induct now generalizing c with
  | case1 b s hnone =>
    have hnone' : s.step now c = none := step_eq_none_iff.2 (step_eq_none_iff.1 hnone)
    rw [settle_of_none hnone, settle_of_none hnone']
    exact ⟨rfl, hc⟩
  | case2 b s s' b' hsome ih =>
    rw [settle_of_some hsome] at hwithin ⊢
    obtain ⟨c', hsome', hc'⟩ :=
      prompted_step hsome hc ((records_settle now b' s').within hwithin)
    rw [settle_of_some hsome']
    exact ih hc' hwithin

/-- **A station that is prompted plays as it has played before.** -/
theorem play_prompted (hc : s.Prompts binds submits c)
    (hwithin : (s.play now b).1.Within binds submits) :
    (s.play now c).1 = (s.play now b).1 ∧
      (s.play now b).1.Prompts binds submits (s.play now c).2 := by
  -- The look at the timers adds to what is on record when the station has settled.
  have hsettled := (records_performAll now _ _ _).within hwithin
  obtain ⟨hsame, hc'⟩ := prompted_settle hc hsettled
  unfold Station.play
  dsimp only
  rw [hsame]
  exact prompted_performAll now _ hc' hwithin

/-- Two stations whose calls of either kind, one by one, were given the same answers after the same
delays, as far as both have called. -/
structure AnsweredLike (s s' : Station) : Prop where
  binds : ∀ (k : Nat) a a', s.binds[k]? = some a → s'.binds[k]? = some a' → a = a'
  submits : ∀ (k : Nat) a a', s.submits[k]? = some a → s'.submits[k]? = some a' → a = a'

/-- Two lists that agree as far as both go begin one list. -/
theorem exists_prefix_of_agree {α : Type} {l l' : List α}
    (hagree : ∀ (k : Nat) a a', l[k]? = some a → l'[k]? = some a' → a = a') :
    ∃ all, l <+: all ∧ l' <+: all := by
  have key {l l' : List α} (hagree : ∀ (k : Nat) a a', l[k]? = some a → l'[k]? = some a' → a = a')
      (hle : l.length ≤ l'.length) : l <+: l' := by
    refine List.prefix_iff_getElem?.2 fun k hk => ?_
    have hk' := List.getElem?_eq_getElem (Nat.lt_of_lt_of_le hk hle)
    rw [hk', hagree k _ _ (List.getElem?_eq_getElem hk) hk']
  -- The shorter one begins the longer one.
  obtain hle | hle := Nat.le_total l.length l'.length
  · exact ⟨l', key hagree hle, List.prefix_rfl⟩
  · exact ⟨l, List.prefix_rfl, key (fun k a a' h h' => (hagree k a' a h' h).symm) hle⟩

/-- **What two stations were answered begins two lists**, if they were answered alike. -/
theorem AnsweredLike.exists_within (h : s.AnsweredLike s') :
    ∃ binds submits, s.Within binds submits ∧ s'.Within binds submits := by
  obtain ⟨binds, hbinds, hbinds'⟩ := exists_prefix_of_agree h.binds
  obtain ⟨submits, hsubmits, hsubmits'⟩ := exists_prefix_of_agree h.submits
  exact ⟨binds, submits, ⟨hbinds, hsubmits⟩, ⟨hbinds', hsubmits'⟩⟩

end Prompts

end Station

end Smpp
