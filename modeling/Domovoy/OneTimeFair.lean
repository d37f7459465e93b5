/-
Who comes back from a one-time initialisation, in an infinite run that is weakly fair to
every thread: everyone, unless the body is given up.
-/
import Domovoy.FairRuns
import Domovoy.OneTime

namespace OneTime

open FairRuns

universe u v w

/-- Outside, some steps before it tries to set `claimed`, in the loop that waits for
`done`, or in the body, some steps before its end. -/
inductive Pos where
  | outside
  | racing (left : Nat)
  | waiting
  | inside (left : Nat)
deriving DecidableEq

structure State (Tid : Type u) where
  claimed : Bool
  done : Bool
  pos : Tid → Pos

/-- What a step is to the initialisation. -/
inductive Act (Tid : Type u) where
  | elsewhere
  | move (t : Tid)
  /-- An exception leaves the body. -/
  | abandon (t : Tid)

/-- The thread that takes the step. -/
def Act.thread {Tid : Type u} : Act Tid → Option Tid
  | .elsewhere => none
  | .move t => some t
  | .abandon t => some t

/-- One step of a thread: the flags and its position before and after it. -/
inductive Moves (claimed done : Bool) : Pos → Bool → Bool → Pos → Prop
  | outside : Moves claimed done .outside claimed done .outside
  | comes (left : Nat) : Moves claimed done .outside claimed done (.racing left)
  | nears (left : Nat) : Moves claimed done (.racing (left + 1)) claimed done (.racing left)
  | loses (hclaimed : claimed = true) :
      Moves claimed done (.racing 0) claimed done .waiting
  | claims (left : Nat) (hclaimed : claimed = false) :
      Moves claimed done (.racing 0) true done (.inside left)
  | waits (hdone : done = false) : Moves claimed done .waiting claimed done .waiting
  | passes {pos : Pos} (hpos : ∀ left, pos ≠ .inside left) (hdone : done = true) :
      Moves claimed done pos claimed done .outside
  | works (left : Nat) : Moves claimed done (.inside (left + 1)) claimed done (.inside left)
  | finishes : Moves claimed done (.inside 0) claimed true .outside

section

variable {Tid : Type u}

/-- As the general invariant sees it, whose body has no effects here. -/
def Pos.place : Pos → Option (List Empty)
  | .inside _ => some []
  | _ => none

def State.Inv (s : State Tid) : Prop :=
  OneTime.Inv [] (fun _ => True) s.claimed s.done fun t => (s.pos t).place

/-- Someone has claimed the body, and nobody is in it to finish it. -/
structure State.Abandoned (s : State Tid) : Prop where
  claimed : s.claimed = true
  done : s.done = false
  nobody : ∀ t left, s.pos t ≠ .inside left

/-- What is claimed is being done or has been, and what is waited for is claimed. -/
structure State.Attended (s : State Tid) : Prop where
  claimed : ∀ t, s.pos t = .waiting → s.claimed = true
  inside : s.claimed = true → s.done = false → ∃ t left, s.pos t = .inside left

variable [DecidableEq Tid]

def State.Step (s : State Tid) : Act Tid → State Tid → Prop
  | .elsewhere, s' => s' = s
  | .move t, s' => ∃ claimed done pos, Moves s.claimed s.done (s.pos t) claimed done pos ∧
      s' = ⟨claimed, done, Function.update s.pos t pos⟩
  | .abandon t, s' => ∃ left, s.pos t = .inside left ∧
      s' = ⟨s.claimed, s.done, Function.update s.pos t .outside⟩

variable {s s' : State Tid} {act : Act Tid} {t : Tid}

theorem State.place_update (s : State Tid) (t : Tid) (pos : Pos) :
    (fun t' => (Function.update s.pos t pos t').place) =
      Function.update (fun t' => (s.pos t').place) t pos.place :=
  Function.comp_update Pos.place s.pos t pos

omit [DecidableEq Tid] in
theorem State.place_of_inside {left : Nat} (hinside : s.pos t = .inside left) :
    (s.pos t).place = some [] :=
  congrArg Pos.place hinside

theorem State.Inv.step (hinv : s.Inv) (hstep : s.Step act s') : s'.Inv := by
  cases act with
  | elsewhere =>
      obtain rfl := hstep
      exact hinv
  | abandon t =>
      obtain ⟨left, -, rfl⟩ := hstep
      rw [State.Inv, State.place_update]
      exact OneTime.Inv.stay hinv nofun fun _ => id
  | move t =>
      obtain ⟨claimed, done, pos, hmoves, rfl⟩ := hstep
      rw [State.Inv, State.place_update]
      have hstay : ∀ pos : Pos, (∀ left, pos ≠ .inside left) ∨ (∃ left, s.pos t = .inside left) →
          OneTime.Inv [] (fun _ => True) s.claimed s.done
            (Function.update (fun t' => (s.pos t').place) t pos.place) := by
        intro pos hpos
        apply OneTime.Inv.stay hinv ?_ fun _ => id
        intro rest hrest
        cases pos with
        | inside left =>
            rcases hpos with hpos | ⟨left', hleft'⟩
            · exact absurd rfl (hpos left)
            · rw [hleft']
              exact hrest
        | outside | racing left | waiting => cases hrest
      generalize hbefore : s.pos t = before at hmoves
      cases hmoves with
      | outside | comes | nears | loses | waits | passes => exact hstay _ (Or.inl nofun)
      | works left => exact hstay _ (Or.inr ⟨left + 1, hbefore⟩)
      | claims left hclaimed =>
          rw [State.Inv, hclaimed] at hinv
          exact OneTime.Inv.claim hinv t
      | finishes => exact OneTime.Inv.finish hinv (place_of_inside hbefore)

/-- Once the body has been given up, it stays so and nobody passes. -/
theorem State.Abandoned.step (habandoned : s.Abandoned) (hstep : s.Step act s') :
    s'.Abandoned ∧ ∀ t, s.pos t ≠ .outside → s'.pos t ≠ .outside := by
  cases act with
  | elsewhere =>
      obtain rfl := hstep
      exact ⟨habandoned, fun _ => id⟩
  | abandon t =>
      obtain ⟨left, hinside, -⟩ := hstep
      exact absurd hinside (habandoned.nobody t left)
  | move t =>
      obtain ⟨claimed, done, pos, hmoves, rfl⟩ := hstep
      have hsame : claimed = s.claimed ∧ done = s.done ∧ (∀ left, pos ≠ .inside left) ∧
          (s.pos t ≠ .outside → pos ≠ .outside) := by
        have hnobody := habandoned.nobody t
        generalize s.pos t = before at hmoves hnobody
        cases hmoves with
        | outside => exact ⟨rfl, rfl, nofun, id⟩
        | comes | nears | loses | waits => exact ⟨rfl, rfl, nofun, fun _ => nofun⟩
        | claims left hclaimed => simp [habandoned.claimed] at hclaimed
        | passes hpos hdone => simp [habandoned.done] at hdone
        | works left => exact absurd rfl (hnobody (left + 1))
        | finishes => exact absurd rfl (hnobody 0)
      obtain ⟨rfl, rfl, hinside, houtside⟩ := hsame
      refine ⟨⟨habandoned.claimed, habandoned.done, fun t' left => ?_⟩, fun t' ht' => ?_⟩
      · by_cases ht : t' = t
        · subst ht
          simpa using hinside left
        · simpa [ht] using habandoned.nobody t' left
      · by_cases ht : t' = t
        · subst ht
          simpa using houtside ht'
        · simpa [ht] using ht'

/-- The exception that leaves the body leaves it to nobody. -/
theorem State.Inv.abandoned (hinv : s.Inv) (hstep : s.Step (.abandon t) s') :
    s'.Abandoned := by
  obtain ⟨left, hinside, rfl⟩ := hstep
  have hplace := place_of_inside hinside
  refine ⟨OneTime.Inv.entered hinv t [] hplace, OneTime.Inv.running hinv t [] hplace, ?_⟩
  intro t' left'
  by_cases ht : t' = t
  · subst ht
    simp
  · simp only [Function.update_of_ne ht]
    intro hinside'
    exact ht (OneTime.Inv.alone hinv t' t [] [] (place_of_inside hinside') hplace)

theorem State.Attended.step (hattended : s.Attended) (hstep : s.Step act s')
    (hstays : ∀ t, act ≠ .abandon t) : s'.Attended := by
  cases act with
  | elsewhere =>
      obtain rfl := hstep
      exact hattended
  | abandon t => exact absurd rfl (hstays t)
  | move t =>
      obtain ⟨claimed, done, pos, hmoves, rfl⟩ := hstep
      have hclaimed : (s.claimed = true → claimed = true) ∧ (pos = .waiting → claimed = true) := by
        have hbefore := hattended.claimed t
        generalize s.pos t = before at hmoves hbefore
        cases hmoves with
        | outside | comes | nears | passes | works | finishes => exact ⟨id, nofun⟩
        | claims => exact ⟨fun _ => rfl, nofun⟩
        | loses hclaimed => exact ⟨id, fun _ => hclaimed⟩
        | waits => exact ⟨id, fun _ => hbefore rfl⟩
      refine ⟨fun t' ht' => ?_, ?_⟩
      · by_cases ht : t' = t
        · subst ht
          exact hclaimed.2 (by simpa using ht')
        · exact hclaimed.1 (hattended.claimed t' (by simpa [ht] using ht'))
      -- Where the thread itself is not in the body, whoever is in it stays there.
      have hother : (∀ left, s.pos t ≠ .inside left) → claimed = s.claimed → done = s.done →
          claimed = true → done = false →
            ∃ u left, Function.update s.pos t pos u = .inside left := by
        rintro hout rfl rfl hclaimed hdone
        obtain ⟨u, left, hinside⟩ := hattended.inside hclaimed hdone
        have hne : u ≠ t := by
          rintro rfl
          exact hout left hinside
        exact ⟨u, left, by simpa [hne] using hinside⟩
      generalize hbefore : s.pos t = before at hmoves
      cases hmoves with
      | outside | comes | nears | loses | waits =>
          exact hother (by simp [hbefore]) rfl rfl
      | passes hpos hdone => exact hother (by simpa [hbefore] using hpos) rfl rfl
      | claims left hclaimed => exact fun _ _ => ⟨t, left, by simp⟩
      | works left => exact fun _ _ => ⟨t, left, by simp⟩
      | finishes => exact fun _ hdone => absurd hdone (by simp)

/-- A step of another thread. -/
theorem State.Step.pos_of_ne (hstep : s.Step act s') (hne : act.thread ≠ some t) :
    s'.pos t = s.pos t := by
  cases act with
  | elsewhere =>
      obtain rfl := hstep
      rfl
  | abandon u =>
      obtain ⟨left, -, rfl⟩ := hstep
      exact Function.update_of_ne (fun ht => hne (congrArg some ht.symm)) ..
  | move u =>
      obtain ⟨claimed, done, pos, -, rfl⟩ := hstep
      exact Function.update_of_ne (fun ht => hne (congrArg some ht.symm)) ..

theorem State.Step.done (hstep : s.Step act s') (hdone : s.done = true) : s'.done = true := by
  cases act with
  | elsewhere =>
      obtain rfl := hstep
      exact hdone
  | abandon u =>
      obtain ⟨left, -, rfl⟩ := hstep
      exact hdone
  | move u =>
      obtain ⟨claimed, done, pos, hmoves, rfl⟩ := hstep
      generalize s.pos u = before at hmoves
      cases hmoves with
      | finishes => rfl
      | outside | comes | nears | loses | claims | waits | passes | works => exact hdone

/-- How many steps a thread is from the loop or from the end of the body. -/
def Pos.ahead : Pos → Nat
  | .racing left => left + 1
  | .inside left => left
  | _ => 0

end

section Runs

variable {Tid : Type u} [DecidableEq Tid] {S : Type v} {A : Type w} {step : S → A → Option S}

/-- An infinite run of something that initialises itself like this, as `view` shows, in
which every thread that is not outside can go on, and is treated fairly. -/
structure Implements (trace : Trace step) (ok : S → A → Prop) (view : S → State Tid)
    (act : A → Act Tid) (onward : Tid → A → Prop) : Prop where
  unclaimed : (view (trace.state 0)).claimed = false
  undone : (view (trace.state 0)).done = false
  outside : ∀ t, (view (trace.state 0)).pos t = .outside
  steps : ∀ n label, trace.event n = some label →
    (view (trace.state n)).Step (act label) (view (trace.state (n + 1)))
  thread : ∀ t label, onward t label → (act label).thread = some t
  enabled : ∀ n t, (view (trace.state n)).pos t ≠ .outside → ∃ label next,
    onward t label ∧ ok (trace.state n) label ∧ step (trace.state n) label = some next
  fair : ∀ t, trace.Fair ok (onward t)

variable {trace : Trace step} {ok : S → A → Prop} {view : S → State Tid} {act : A → Act Tid}
  {onward : Tid → A → Prop}

/-- What the steps of the initialisation keep holds from any time on. -/
theorem Implements.stable (himpl : Implements trace ok view act onward) (inv : State Tid → Prop)
    (hstep : ∀ n label s s', trace.event n = some label → inv s → s.Step (act label) s' →
      inv s') {n m : Nat} (hinv : inv (view (trace.state n))) (hle : n ≤ m) :
    inv (view (trace.state m)) :=
  trace.stable (fun state => inv (view state))
    (fun n label hinv hevent => hstep n label _ _ hevent hinv (himpl.steps n label hevent))
    hinv hle

theorem Implements.inv (himpl : Implements trace ok view act onward) (n : Nat) :
    (view (trace.state n)).Inv := by
  refine himpl.stable State.Inv (fun _ _ _ _ _ hinv hstep => State.Inv.step hinv hstep) ?_
    (Nat.zero_le n)
  have hplace : (fun t => ((view (trace.state 0)).pos t).place) = fun _ => none :=
    funext fun t => congrArg Pos.place (himpl.outside t)
  rw [State.Inv, hplace, himpl.unclaimed, himpl.undone]
  exact OneTime.Inv.initial [] fun _ => True

section NotAbandoned

variable (himpl : Implements trace ok view act onward)
  (hnone : ∀ n label, trace.event n = some label → ∀ t, act label ≠ .abandon t)

include himpl hnone

theorem Implements.attended (n : Nat) : (view (trace.state n)).Attended := by
  refine himpl.stable State.Attended (fun n label _ _ hevent hinv hstep =>
    State.Attended.step hinv hstep (hnone n label hevent)) ?_ (Nat.zero_le n)
  refine ⟨fun t ht => ?_, fun hclaimed => ?_⟩
  · rw [himpl.outside t] at ht
    contradiction
  · rw [himpl.unclaimed] at hclaimed
    contradiction

/-- The rule for the steps of one thread. -/
theorem Implements.leadsTo_of_rank (t : Tid) (p q : State Tid → Prop)
    (hpending : ∀ s, p s → s.pos t ≠ .outside)
    (hother : ∀ s act s', p s → State.Step s act s' → s'.pos t = s.pos t → p s')
    (hown : ∀ s claimed done pos, s.Inv → p s →
      Moves s.claimed s.done (s.pos t) claimed done pos →
        q ⟨claimed, done, Function.update s.pos t pos⟩ ∨
          p ⟨claimed, done, Function.update s.pos t pos⟩ ∧ pos.ahead < (s.pos t).ahead) :
    trace.LeadsTo (fun state => p (view state)) fun state => q (view state) := by
  have hhelps : ∀ n label, p (view (trace.state n)) → trace.event n = some label →
      (act label).thread = some t → q (view (trace.state (n + 1))) ∨
        p (view (trace.state (n + 1))) ∧ ((view (trace.state (n + 1))).pos t).ahead <
          ((view (trace.state n)).pos t).ahead := by
    intro n label hp hevent hthread
    have hstep := himpl.steps n label hevent
    cases hact : act label with
    | elsewhere =>
        rw [hact] at hthread
        cases hthread
    | abandon u => exact absurd hact (hnone n label hevent u)
    | move u =>
        rw [hact] at hthread hstep
        obtain rfl := Option.some.inj hthread
        obtain ⟨claimed, done, pos, hmoves, hview⟩ := hstep
        rw [hview]
        simpa using hown _ claimed done pos (himpl.inv n) hp hmoves
  refine Trace.LeadsTo.of_rank (fun state => ((view state).pos t).ahead) (himpl.fair t)
    (fun n hp => himpl.enabled n t (hpending _ hp)) (fun n label hp hevent => ?_)
    fun n label hp hevent honward => hhelps n label hp hevent (himpl.thread t label honward)
  by_cases hthread : (act label).thread = some t
  · exact (hhelps n label hp hevent hthread).imp_right fun hnext =>
      ⟨hnext.1, Nat.le_of_lt hnext.2⟩
  · have hstep := himpl.steps n label hevent
    have hpos := hstep.pos_of_ne hthread
    exact Or.inr ⟨hother _ _ _ hp hstep hpos, Nat.le_of_eq (congrArg Pos.ahead hpos)⟩

/-- The body comes to its end. -/
theorem Implements.inside_leadsTo_done (t : Tid) :
    trace.LeadsTo (fun state => ∃ left, (view state).pos t = .inside left)
      fun state => (view state).done = true := by
  refine himpl.leadsTo_of_rank hnone t (fun s => ∃ left, s.pos t = .inside left)
    (fun s => s.done = true) ?_ ?_ ?_
  · rintro s ⟨left, hleft⟩ houtside
    rw [hleft] at houtside
    contradiction
  · rintro s act s' ⟨left, hleft⟩ - hpos
    exact ⟨left, hpos.trans hleft⟩
  · rintro s claimed done pos - ⟨left, hleft⟩ hmoves
    rw [hleft] at hmoves ⊢
    cases hmoves with
    | passes hpos => exact absurd rfl (hpos left)
    | works left => exact Or.inr ⟨⟨left, by simp⟩, Nat.lt_succ_self left⟩
    | finishes => exact Or.inl rfl

theorem Implements.racing_leadsTo (t : Tid) :
    trace.LeadsTo (fun state => ∃ left, (view state).pos t = .racing left)
      fun state => ∀ left, (view state).pos t ≠ .racing left := by
  refine himpl.leadsTo_of_rank hnone t (fun s => ∃ left, s.pos t = .racing left)
    (fun s => ∀ left, s.pos t ≠ .racing left) ?_ ?_ ?_
  · rintro s ⟨left, hleft⟩ houtside
    rw [hleft] at houtside
    contradiction
  · rintro s act s' ⟨left, hleft⟩ - hpos
    exact ⟨left, hpos.trans hleft⟩
  · rintro s claimed done pos - ⟨left, hleft⟩ hmoves
    rw [hleft] at hmoves ⊢
    cases hmoves with
    | nears left => exact Or.inr ⟨⟨left, by simp⟩, Nat.lt_succ_self _⟩
    | loses | claims | passes => exact Or.inl (by simp)

/-- Once the body has been done, everyone passes. -/
theorem Implements.done_leadsTo_outside (t : Tid) :
    trace.LeadsTo (fun state => (view state).done = true ∧ (view state).pos t ≠ .outside)
      fun state => (view state).pos t = .outside := by
  refine himpl.leadsTo_of_rank hnone t (fun s => s.done = true ∧ s.pos t ≠ .outside)
    (fun s => s.pos t = .outside) (fun s hp => hp.2) ?_ ?_
  · rintro s act s' ⟨hdone, houtside⟩ hstep hpos
    exact ⟨hstep.done hdone, hpos.symm ▸ houtside⟩
  · rintro s claimed done pos hinv ⟨hdone, houtside⟩ hmoves
    have hnobody : ∀ left, s.pos t ≠ .inside left := by
      intro left hinside
      have hrunning := OneTime.Inv.running hinv t [] (State.place_of_inside hinside)
      rw [hdone] at hrunning
      contradiction
    have hclaimed : s.claimed = true := OneTime.Inv.started hinv hdone
    generalize s.pos t = before at hmoves houtside hnobody
    cases hmoves with
    | outside | comes => exact absurd rfl houtside
    | nears left => exact Or.inr ⟨⟨hdone, by simp⟩, Nat.lt_succ_self _⟩
    | loses => exact Or.inr ⟨⟨hdone, by simp⟩, Nat.zero_lt_succ 0⟩
    | claims left hfree => simp [hclaimed] at hfree
    | waits hwaits => simp [hdone] at hwaits
    | passes => exact Or.inl (by simp)
    | works left => exact absurd rfl (hnobody (left + 1))
    | finishes => exact absurd rfl (hnobody 0)

/-- Whoever has come returns. -/
theorem Implements.returns (t : Tid) :
    trace.LeadsTo (fun state => (view state).pos t ≠ .outside)
      fun state => (view state).pos t = .outside := by
  have hraced : trace.LeadsTo (fun state => (view state).pos t ≠ .outside)
      fun state => ∀ left, (view state).pos t ≠ .racing left := by
    intro n _
    by_cases hracing : ∃ left, (view (trace.state n)).pos t = .racing left
    · exact himpl.racing_leadsTo hnone t n hracing
    · exact ⟨n, Nat.le_refl n, fun left hleft => hracing ⟨left, hleft⟩⟩
  have hdone : trace.LeadsTo (fun state => ∀ left, (view state).pos t ≠ .racing left)
      fun state => (view state).done = true ∨ (view state).pos t = .outside := by
    intro n hraced
    have hinside : ∀ u, (∃ left, (view (trace.state n)).pos u = .inside left) →
        ∃ m, n ≤ m ∧ ((view (trace.state m)).done = true ∨
          (view (trace.state m)).pos t = .outside) := by
      intro u hu
      obtain ⟨m, hm, hdone⟩ := himpl.inside_leadsTo_done hnone u n hu
      exact ⟨m, hm, Or.inl hdone⟩
    cases hpos : (view (trace.state n)).pos t with
    | outside => exact ⟨n, Nat.le_refl n, Or.inr hpos⟩
    | racing left => exact absurd hpos (hraced left)
    | inside left => exact hinside t ⟨left, hpos⟩
    | waiting =>
        have hattended := himpl.attended hnone n
        cases hdone : (view (trace.state n)).done with
        | true => exact ⟨n, Nat.le_refl n, Or.inl hdone⟩
        | false =>
            obtain ⟨u, hu⟩ := hattended.inside (hattended.claimed t hpos) hdone
            exact hinside u hu
  have hout : trace.LeadsTo
      (fun state => (view state).done = true ∨ (view state).pos t = .outside)
      fun state => (view state).pos t = .outside := by
    intro n hstate
    by_cases houtside : (view (trace.state n)).pos t = .outside
    · exact ⟨n, Nat.le_refl n, houtside⟩
    · exact himpl.done_leadsTo_outside hnone t n ⟨hstate.resolve_right houtside, houtside⟩
  exact (hraced.trans hdone).trans hout

end NotAbandoned

/-- After an exception has left the body, whoever is not outside stays so. -/
theorem Implements.stranded (himpl : Implements trace ok view act onward) {n m m' : Nat} {label : A}
    {t u : Tid} (hevent : trace.event n = some label) (habandon : act label = .abandon u)
    (hlt : n < m) (ht : (view (trace.state m)).pos t ≠ .outside) (hle : m ≤ m') :
    (view (trace.state m')).pos t ≠ .outside := by
  have hstep := himpl.steps n label hevent
  rw [habandon] at hstep
  have habandoned : (view (trace.state m)).Abandoned :=
    himpl.stable State.Abandoned (fun _ _ _ _ _ hinv hstep => (State.Abandoned.step hinv hstep).1)
      (State.Inv.abandoned (himpl.inv n) hstep) hlt
  have hboth := himpl.stable
    (fun s => State.Abandoned s ∧ s.pos t ≠ .outside)
    (fun _ _ _ _ _ hinv hstep =>
      ⟨(State.Abandoned.step hinv.1 hstep).1, (State.Abandoned.step hinv.1 hstep).2 t hinv.2⟩)
    ⟨habandoned, ht⟩ hle
  exact hboth.2

/-- Everyone who comes returns, if and only if nobody is there or comes after an exception
has left the body. -/
theorem Implements.all_return_iff (himpl : Implements trace ok view act onward) :
    (∀ t, trace.LeadsTo (fun state => (view state).pos t ≠ .outside)
        fun state => (view state).pos t = .outside) ↔
      ∀ n label u, trace.event n = some label → act label = .abandon u →
        ∀ m t, n < m → (view (trace.state m)).pos t = .outside := by
  constructor
  · intro hreturns n label u hevent habandon m t hlt
    by_contra ht
    obtain ⟨m', hm', houtside⟩ := hreturns t m ht
    exact himpl.stranded hevent habandon hlt ht hm' houtside
  · intro hnobody t n ht
    by_cases hlater : ∃ k label u, n ≤ k ∧ trace.event k = some label ∧ act label = .abandon u
    · obtain ⟨k, label, u, hle, hevent, habandon⟩ := hlater
      exact ⟨k + 1, Nat.le_succ_of_le hle,
        hnobody k label u hevent habandon (k + 1) t (Nat.lt_succ_self k)⟩
    · refine himpl.returns (fun k label hevent u habandon => ?_) t n ht
      rcases Nat.lt_or_ge k n with hlt | hge
      · exact ht (hnobody k label u hevent habandon n t hlt)
      · exact hlater ⟨k, label, u, hge, hevent, habandon⟩

end Runs

end OneTime
