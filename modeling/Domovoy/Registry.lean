/-
A registry of recyclable resources.  Threads acquire a resource from a provider,
record it in a shared table, and later take the record out again and give the
resource back; the provider may hand the same identifier out again at once.  Each
access to the provider or to the table is one atomic step.
-/
import Mathlib.Data.List.AList
import Domovoy.Transition

namespace Registry

open Transition

universe u v w

variable {T : Type u} {K : Type v} {V : Type w}

/-- Where a thread stands between its accesses.  `stale old next` is a thread
that has given `old` back with its record still in the table, and has acquired
`next` in exchange. -/
inductive Phase (K : Type v) (V : Type w) where
  | idle
  | acquired (id : K) (info : V)
  | retiring (id : K)
  | unregistered (id : K)
  | stale (old : K) (next : Option (K × V))

/-- The provider's resources, the table, the identifiers the clients hold, and
the position of every thread. -/
structure State (T : Type u) (K : Type v) (V : Type w) where
  live : K → Option V
  table : K → Option V
  owned : K → Bool
  phase : T → Phase K V

inductive Act (K : Type v) (V : Type w) where
  | acquire (id : K) (info : V)
  | register
  | retire (id : K)
  | unregister
  | release
  | exchange (next : Option (K × V))
  | dropStale

structure Label (T : Type u) (K : Type v) (V : Type w) where
  thread : T
  act : Act K V

def State.initial : State T K V where
  live := fun _ => none
  table := fun _ => none
  owned := fun _ => false
  phase := fun _ => .idle

/-- What a thread goes on to after dropping the record of what it gave back. -/
def Phase.afterDrop : Option (K × V) → Phase K V
  | none => .idle
  | some (id, info) => .acquired id info

section Step

variable [DecidableEq T] [DecidableEq K]

def State.step (s : State T K V) (label : Label T K V) : Option (State T K V) :=
  let setPhase := Function.update s.phase label.thread
  match label.act, s.phase label.thread with
  | .acquire id info, .idle =>
      if (s.live id).isNone then
        some { s with
          live := Function.update s.live id (some info)
          phase := setPhase (.acquired id info) }
      else none
  | .register, .acquired id info =>
      some { s with
        table := Function.update s.table id (some info)
        owned := Function.update s.owned id true
        phase := setPhase .idle }
  | .retire id, .idle =>
      if s.owned id then
        some { s with
          owned := Function.update s.owned id false
          phase := setPhase (.retiring id) }
      else none
  | .unregister, .retiring id =>
      some { s with
        table := Function.update s.table id none
        phase := setPhase (.unregistered id) }
  | .release, .unregistered id =>
      some { s with
        live := Function.update s.live id none
        phase := setPhase .idle }
  | .exchange none, .retiring id =>
      some { s with
        live := Function.update s.live id none
        phase := setPhase (.stale id none) }
  | .exchange (some (new, info)), .retiring id =>
      if new = id ∨ (s.live new).isNone then
        some { s with
          live := Function.update (Function.update s.live id none) new (some info)
          phase := setPhase (.stale id (some (new, info))) }
      else none
  | .dropStale, .stale old next =>
      some { s with
        table := Function.update s.table old none
        phase := setPhase (.afterDrop next) }
  | _, _ => none

variable {s : State T K V} {t : T}

theorem State.step_acquire {id : K} (info : V) (hphase : s.phase t = .idle)
    (hlive : s.live id = none) :
    s.step ⟨t, .acquire id info⟩ = some { s with
      live := Function.update s.live id (some info)
      phase := Function.update s.phase t (.acquired id info) } := by
  simp [State.step, hphase, hlive]

theorem State.step_register {id : K} {info : V} (hphase : s.phase t = .acquired id info) :
    s.step ⟨t, .register⟩ = some { s with
      table := Function.update s.table id (some info)
      owned := Function.update s.owned id true
      phase := Function.update s.phase t .idle } := by
  simp [State.step, hphase]

theorem State.step_retire {id : K} (hphase : s.phase t = .idle)
    (howned : s.owned id = true) :
    s.step ⟨t, .retire id⟩ = some { s with
      owned := Function.update s.owned id false
      phase := Function.update s.phase t (.retiring id) } := by
  simp [State.step, hphase, howned]

theorem State.step_unregister {id : K} (hphase : s.phase t = .retiring id) :
    s.step ⟨t, .unregister⟩ = some { s with
      table := Function.update s.table id none
      phase := Function.update s.phase t (.unregistered id) } := by
  simp [State.step, hphase]

theorem State.step_release {id : K} (hphase : s.phase t = .unregistered id) :
    s.step ⟨t, .release⟩ = some { s with
      live := Function.update s.live id none
      phase := Function.update s.phase t .idle } := by
  simp [State.step, hphase]

theorem State.step_giveBack {id : K} (hphase : s.phase t = .retiring id) :
    s.step ⟨t, .exchange none⟩ = some { s with
      live := Function.update s.live id none
      phase := Function.update s.phase t (.stale id none) } := by
  simp [State.step, hphase]

theorem State.step_exchange {id new : K} (info : V) (hphase : s.phase t = .retiring id)
    (hnew : new = id ∨ s.live new = none) :
    s.step ⟨t, .exchange (some (new, info))⟩ = some { s with
      live := Function.update (Function.update s.live id none) new (some info)
      phase := Function.update s.phase t (.stale id (some (new, info))) } := by
  simp [State.step, hphase, hnew]

theorem State.step_dropStale {old : K} {next : Option (K × V)}
    (hphase : s.phase t = .stale old next) :
    s.step ⟨t, .dropStale⟩ = some { s with
      table := Function.update s.table old none
      phase := Function.update s.phase t (.afterDrop next) } := by
  simp [State.step, hphase]

end Step

/-- The resource a thread has in hand, if any. -/
def Phase.holding : Phase K V → Option K
  | .idle => none
  | .acquired id _ => some id
  | .retiring id => some id
  | .unregistered id => some id
  | .stale _ next => next.map Prod.fst

/-- The resource a thread has acquired and not yet recorded. -/
def Phase.pending : Phase K V → Option (K × V)
  | .acquired id info => some (id, info)
  | .stale _ next => next
  | _ => none

/-- The resource a thread has given back with its record still in the table. -/
def Phase.leftover : Phase K V → Option K
  | .stale old _ => some old
  | _ => none

@[simp] theorem Phase.holding_afterDrop (next : Option (K × V)) :
    (Phase.afterDrop next).holding = next.map Prod.fst := by
  cases next <;> rfl

@[simp] theorem Phase.pending_afterDrop (next : Option (K × V)) :
    (Phase.afterDrop next).pending = next := by
  cases next <;> rfl

@[simp] theorem Phase.leftover_afterDrop (next : Option (K × V)) :
    (Phase.afterDrop next).leftover = none := by
  cases next <;> rfl

theorem Phase.holding_of_pending {phase : Phase K V} {id : K} {info : V}
    (hpending : phase.pending = some (id, info)) : phase.holding = some id := by
  cases phase with
  | acquired => simpa [pending, holding] using congrArg (Option.map Prod.fst) hpending
  | stale old next => simp only [pending] at hpending; simp [holding, hpending]
  | idle | retiring | unregistered => cases hpending

/-- What a thread that holds a resource is doing with it. -/
theorem Phase.cases_of_holding {phase : Phase K V} {id : K}
    (hholding : phase.holding = some id) :
    (∃ info, phase.pending = some (id, info)) ∨ phase = .retiring id ∨
      phase = .unregistered id := by
  cases phase with
  | idle => cases hholding
  | acquired id' info =>
      obtain rfl := Option.some.inj hholding
      exact .inl ⟨info, rfl⟩
  | retiring id' =>
      obtain rfl := Option.some.inj hholding
      exact .inr (.inl rfl)
  | unregistered id' =>
      obtain rfl := Option.some.inj hholding
      exact .inr (.inr rfl)
  | stale old next =>
      obtain ⟨⟨id', info⟩, rfl, rfl⟩ := Option.map_eq_some_iff.mp hholding
      exact .inl ⟨info, rfl⟩

/-- A record is being made or has already been taken out. -/
def State.InWindow (s : State T K V) (id : K) : Prop :=
  ∃ t, (∃ info, (s.phase t).pending = some (id, info)) ∨ s.phase t = .unregistered id

/-- The invariant: every live resource has exactly one holder, the record of a
registered resource is its own, and every other record is the leftover of one
thread that has still to drop it. -/
structure Inv (s : State T K V) : Prop where
  unique : ∀ id t t', (s.phase t).holding = some id →
    (s.phase t').holding = some id → t = t'
  exclusive : ∀ id t, s.owned id = true → (s.phase t).holding ≠ some id
  owned_live : ∀ id, s.owned id = true → s.live id ≠ none
  held_live : ∀ id t, (s.phase t).holding = some id → s.live id ≠ none
  live_held : ∀ id, s.live id ≠ none →
    s.owned id = true ∨ ∃ t, (s.phase t).holding = some id
  pending_live : ∀ t id info, (s.phase t).pending = some (id, info) →
    s.live id = some info
  owned_table : ∀ id, s.owned id = true → s.table id = s.live id
  retiring_table : ∀ id t, s.phase t = .retiring id → s.table id = s.live id
  remnant : ∀ id, s.table id ≠ none →
    s.owned id = true ∨ (∃ t, s.phase t = .retiring id) ∨
      ∃ t, (s.phase t).leftover = some id
  leftover_owned : ∀ t id, (s.phase t).leftover = some id → s.owned id = false
  leftover_held : ∀ t id t', (s.phase t).leftover = some id →
    s.phase t' ≠ .retiring id ∧ s.phase t' ≠ .unregistered id
  leftover_unique : ∀ id t t', (s.phase t).leftover = some id →
    (s.phase t').leftover = some id → t = t'

theorem inv_initial : Inv (State.initial : State T K V) := by
  constructor <;> simp [State.initial, Phase.holding, Phase.pending, Phase.leftover]

section Preservation

variable [DecidableEq T] [DecidableEq K] {s : State T K V} {t : T}

attribute [local grind cases] Inv
attribute [local grind] Phase.holding Phase.pending Phase.leftover

theorem Inv.acquire (hinv : Inv s) {id : K} {info : V}
    (hphase : s.phase t = .idle) (hlive : s.live id = none) :
    Inv { s with
      live := Function.update s.live id (some info)
      phase := Function.update s.phase t (.acquired id info) } := by
  constructor <;> simp only [Function.update_apply] <;> grind

/-- The one action that may make a leftover record indistinguishable from a
record in use, which the last hypothesis excludes. -/
theorem Inv.register (hinv : Inv s) {id : K} {info : V}
    (hphase : s.phase t = .acquired id info)
    (hsafe : ∀ t', (s.phase t').leftover ≠ some id) :
    Inv { s with
      table := Function.update s.table id (some info)
      owned := Function.update s.owned id true
      phase := Function.update s.phase t .idle } := by
  constructor <;> simp only [Function.update_apply] <;> grind

theorem Inv.retire (hinv : Inv s) {id : K}
    (hphase : s.phase t = .idle) (howned : s.owned id = true) :
    Inv { s with
      owned := Function.update s.owned id false
      phase := Function.update s.phase t (.retiring id) } := by
  constructor <;> simp only [Function.update_apply] <;> grind

theorem Inv.unregister (hinv : Inv s) {id : K} (hphase : s.phase t = .retiring id) :
    Inv { s with
      table := Function.update s.table id none
      phase := Function.update s.phase t (.unregistered id) } := by
  constructor <;> simp only [Function.update_apply] <;> grind

theorem Inv.release (hinv : Inv s) {id : K} (hphase : s.phase t = .unregistered id) :
    Inv { s with
      live := Function.update s.live id none
      phase := Function.update s.phase t .idle } := by
  constructor <;> simp only [Function.update_apply] <;>
    grind [Phase.holding_of_pending]

/-- The resource gets no record and no holder: nobody will give it back. -/
theorem Inv.abandon (hinv : Inv s) {id : K} {info : V}
    (hphase : s.phase t = .acquired id info) :
    Inv { s with
      live := Function.update s.live id none
      phase := Function.update s.phase t .idle } := by
  constructor <;> simp only [Function.update_apply] <;>
    grind [Phase.holding_of_pending]

/-- The resource is given back first: its record becomes a leftover. -/
theorem Inv.giveBack (hinv : Inv s) {id : K} (hphase : s.phase t = .retiring id) :
    Inv { s with
      live := Function.update s.live id none
      phase := Function.update s.phase t (.stale id none) } := by
  constructor <;> simp only [Function.update_apply] <;>
    grind [Phase.holding_of_pending]

theorem Inv.takeNext (hinv : Inv s) {old id : K} (info : V)
    (hphase : s.phase t = .stale old none) (hlive : s.live id = none) :
    Inv { s with
      live := Function.update s.live id (some info)
      phase := Function.update s.phase t (.stale old (some (id, info))) } := by
  constructor <;> simp only [Function.update_apply] <;> grind

theorem Inv.dropStale (hinv : Inv s) {old : K} {next : Option (K × V)}
    (hphase : s.phase t = .stale old next) :
    Inv { s with
      table := Function.update s.table old none
      phase := Function.update s.phase t (.afterDrop next) } := by
  have hretiring : ∀ id, Phase.afterDrop next ≠ .retiring id := by
    cases next <;> simp [Phase.afterDrop]
  have hunregistered : ∀ id, Phase.afterDrop next ≠ .unregistered id := by
    cases next <;> simp [Phase.afterDrop]
  constructor <;> simp only [Function.update_apply] <;>
    grind [Phase.holding_afterDrop, Phase.pending_afterDrop, Phase.leftover_afterDrop]

/-- No record is made for an identifier that some thread has given back and not
yet dropped from the table. -/
def State.Safe (s : State T K V) (label : Label T K V) : Prop :=
  ∀ id info, label.act = .register → s.phase label.thread = .acquired id info →
    ∀ t, (s.phase t).leftover ≠ some id

omit [DecidableEq T] [DecidableEq K] in
theorem State.safe_of_ne {label : Label T K V} (hact : label.act ≠ .register) :
    s.Safe label :=
  fun _ _ hregister => absurd hregister hact

/-- One step keeps the invariant. -/
theorem Inv.step {s' : State T K V} {label : Label T K V} (hinv : Inv s)
    (hsafe : s.Safe label) (hstep : s.step label = some s') : Inv s' := by
  rcases label with ⟨t, act⟩
  simp only [State.step] at hstep
  split at hstep
  case h_1 id info hphase =>
    obtain ⟨hlive, hafter⟩ := Option.ite_none_right_eq_some.mp hstep
    obtain rfl := Option.some.inj hafter
    exact hinv.acquire hphase (Option.isNone_iff_eq_none.mp hlive)
  case h_2 id info hphase =>
    obtain rfl := Option.some.inj hstep
    exact hinv.register hphase (hsafe id info rfl hphase)
  case h_3 id hphase =>
    obtain ⟨howned, hafter⟩ := Option.ite_none_right_eq_some.mp hstep
    obtain rfl := Option.some.inj hafter
    exact hinv.retire hphase howned
  case h_4 id hphase =>
    obtain rfl := Option.some.inj hstep
    exact hinv.unregister hphase
  case h_5 id hphase =>
    obtain rfl := Option.some.inj hstep
    exact hinv.release hphase
  case h_6 id hphase =>
    obtain rfl := Option.some.inj hstep
    exact hinv.giveBack hphase
  case h_7 new info id hphase =>
    obtain ⟨hnew, hafter⟩ := Option.ite_none_right_eq_some.mp hstep
    obtain rfl := Option.some.inj hafter
    have hfree : Function.update s.live id none new = none := by
      rcases hnew with rfl | hlive
      · exact Function.update_self ..
      · rw [Function.update_apply, Option.isNone_iff_eq_none.mp hlive, ite_self]
    have hgiven : Inv { s with
        live := Function.update s.live id none
        phase := Function.update s.phase t (.stale id none) } := hinv.giveBack hphase
    have htaken :=
      hgiven.takeNext info (Function.update_self t (.stale id none) s.phase) hfree
    simpa using htaken
  case h_8 old next hphase =>
    obtain rfl := Option.some.inj hstep
    exact hinv.dropStale hphase
  case h_9 => simp at hstep

/-- Every state that safe steps reach satisfies the invariant. -/
theorem Inv.reaches {start final : State T K V} (hinv : Inv start)
    (hreaches : ReachesAlong State.step State.Safe start final) : Inv final := by
  obtain ⟨labels, hsafe, hrun⟩ := hreaches
  exact run_invariant_along (fun _ _ _ hinv hsafe hstep => hinv.step hsafe hstep)
    hinv hsafe hrun

end Preservation

variable {s : State T K V}

/-- With every thread idle, the table is what the provider has given out. -/
theorem Inv.table_eq_live (hinv : Inv s) (hidle : ∀ t, s.phase t = .idle) :
    s.table = s.live := by
  funext id
  by_cases howned : s.owned id = true
  · exact hinv.owned_table id howned
  · have htable : s.table id = none := by
      by_contra hrecorded
      rcases hinv.remnant id hrecorded with h | ⟨t, h⟩ | ⟨t, h⟩
      · exact howned h
      · simp [hidle t] at h
      · simp [hidle t, Phase.leftover] at h
    have hlive : s.live id = none := by
      by_contra hgiven
      rcases hinv.live_held id hgiven with h | ⟨t, h⟩
      · exact howned h
      · simp [hidle t, Phase.holding] at h
    rw [htable, hlive]

/-- Outside its window a live resource is recorded. -/
theorem Inv.table_of_live (hinv : Inv s) {id : K} (hlive : s.live id ≠ none)
    (hwindow : ¬ s.InWindow id) : s.table id = s.live id := by
  rcases hinv.live_held id hlive with howned | ⟨t, hholding⟩
  · exact hinv.owned_table id howned
  · rcases Phase.cases_of_holding hholding with hpending | hretiring | hunregistered
    · exact absurd ⟨t, .inl hpending⟩ hwindow
    · exact hinv.retiring_table id t hretiring
    · exact absurd ⟨t, .inr hunregistered⟩ hwindow

/-- Where nothing is left over, a record is that of a live resource outside its
window. -/
theorem Inv.live_of_table (hinv : Inv s) {id : K} (htable : s.table id ≠ none)
    (hgiven : ∀ t, (s.phase t).leftover ≠ some id) :
    s.live id = s.table id ∧ ¬ s.InWindow id := by
  have hholder : s.owned id = true ∨ ∃ t, s.phase t = .retiring id := by
    rcases hinv.remnant id htable with howned | hretiring | ⟨t, hleft⟩
    · exact .inl howned
    · exact .inr hretiring
    · exact absurd hleft (hgiven t)
  constructor
  · rcases hholder with howned | ⟨t, hretiring⟩
    · exact (hinv.owned_table id howned).symm
    · exact (hinv.retiring_table id t hretiring).symm
  · rintro ⟨t, hwindow⟩
    have hholding : (s.phase t).holding = some id := by
      rcases hwindow with ⟨info, hpending⟩ | hphase
      · exact Phase.holding_of_pending hpending
      · simp [hphase, Phase.holding]
    rcases hholder with howned | ⟨t', hretiring⟩
    · exact hinv.exclusive id t howned hholding
    · obtain rfl := hinv.unique id t t' hholding (by simp [hretiring, Phase.holding])
      rcases hwindow with ⟨info, hpending⟩ | hphase
      · simp [hretiring, Phase.pending] at hpending
      · simp [hretiring] at hphase

/-- A resource that is given out again while its old record is left over has not
been recorded by its new holder yet. -/
theorem Inv.pending_of_leftover (hinv : Inv s) {t : T} {id : K}
    (hleft : (s.phase t).leftover = some id) (hlive : s.live id ≠ none) :
    ∃ t' info, (s.phase t').pending = some (id, info) := by
  rcases hinv.live_held id hlive with howned | ⟨t', hholding⟩
  · exact absurd howned (by simp [hinv.leftover_owned t id hleft])
  · have hheld := hinv.leftover_held t id t' hleft
    rcases Phase.cases_of_holding hholding with hpending | hretiring | hunregistered
    · exact ⟨t', hpending⟩
    · exact absurd hretiring hheld.1
    · exact absurd hunregistered hheld.2

section Lookup

variable [DecidableEq K]

/-- Insertion into an association list, seen as a partial function. -/
theorem lookup_insert_eq_update (table : AList fun _ : K => V) (id : K) (info : V) :
    (fun id' => (table.insert id info).lookup id') =
      Function.update (fun id' => table.lookup id') id (some info) := by
  funext id'
  by_cases hid : id' = id
  · subst hid
    simp
  · simp [hid, AList.lookup_insert_ne]

theorem lookup_erase_eq_update (table : AList fun _ : K => V) (id : K) :
    (fun id' => (table.erase id).lookup id') =
      Function.update (fun id' => table.lookup id') id none := by
  funext id'
  by_cases hid : id' = id
  · subst hid
    simp
  · simp [hid, AList.lookup_erase_ne]

end Lookup

end Registry
