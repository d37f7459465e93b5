/-
The one-time initialisation of the allocation hooks under any schedule, for lookups that
find their functions and call no hook.
-/
import Domovoy.BootstrapRelease
import Domovoy.HostCalls
import Domovoy.OneTime

namespace Domovoy

open WordAlign Transition

/-- What `InitHooks` leaves behind. -/
inductive InitEffect where
  | pointer (name : RealName)
  /-- `g_allocations`. -/
  | map
deriving DecidableEq, Repr

/-- The effects of `InitHooks`, in order. -/
def initEffects : List InitEffect :=
  lookups.map .pointer ++ [.map]

/-- What `InitHooks` still has to do; `none` outside of it. -/
def InitPc.remaining : InitPc → Option (List InitEffect)
  | .entering => some initEffects
  | .resolving rest => some (rest.map .pointer ++ [.map])
  | .mapping => some [.map]
  | .publishing => some []
  | _ => none

def HookShared.Has (s : HookShared) : InitEffect → Prop
  | .pointer name => s.real name = true
  | .map => s.tracker.gAllocations.isSome = true

/-- All six pointers and the map are set. -/
def HookShared.Complete (s : HookShared) : Prop :=
  (∀ name, s.real name = true) ∧ s.tracker.gAllocations.isSome = true

variable {Tid : Type}

/-- Every lookup finds its function, and makes no hooked call. -/
def HookWorld.LooksUp (w : HookWorld Tid) : OnceMove Tid → Prop
  | .move label =>
      match label.move with
      | .enter _ => w.frames label.thread = []
      | .advance env => env.found = true
      | .configure _ => True
  | .allocateThrows _ => True

/-- The step enters `InitHooks`. -/
def HookWorld.entersInitHooks (w : HookWorld Tid) : OnceMove Tid → Bool
  | .move label =>
      match label.move, w.frames label.thread with
      | .advance _, ⟨_, .entering⟩ :: _ => true
      | _, _ => false
  | .allocateThrows _ => false

/-- The step returns from `EnsureInit`. -/
def HookWorld.ReturnsFromEnsureInit (w : HookWorld Tid) (label : OnceMove Tid) : Prop :=
  ∃ t env frame below, label = .move ⟨t, .advance env⟩ ∧ w.frames t = frame :: below ∧
    (frame.pc = .loading ∧ w.shared.hooksInitialized = true ∨
      frame.pc = .waiting ∧ w.shared.hooksInitialized = true ∨ frame.pc = .publishing)

/-- No hook stands before a call through a null pointer. -/
def HookWorld.CallsSet (w : HookWorld Tid) : Prop :=
  ∀ t, ∀ frame ∈ w.frames t, ∀ call, frame.entry = .hook call → frame.pc = .real →
    w.shared.real call.realName = true

def HookWorld.place (w : HookWorld Tid) (t : Tid) : Option (List InitEffect) :=
  (w.frames t).head?.bind fun frame => frame.pc.remaining

structure HookWorld.OnceInv (w : HookWorld Tid) : Prop where
  shallow : ∀ t, (w.frames t).length ≤ 1
  once : OneTime.Inv initEffects w.shared.Has w.shared.hooksInitializing
    w.shared.hooksInitialized w.place
  calls : w.CallsSet

/-- `InitHooks` has been entered. -/
def HookWorld.Entered (w : HookWorld Tid) : Prop :=
  w.shared.hooksInitializing = true ∧ ∀ t, ∀ frame ∈ w.frames t, frame.pc ≠ .entering

theorem HookShared.complete_iff (s : HookShared) :
    s.Complete ↔ ∀ effect ∈ initEffects, s.Has effect := by
  constructor
  · rintro ⟨hreal, hmap⟩ effect -
    cases effect with
    | pointer name => exact hreal name
    | map => exact hmap
  · intro hall
    refine ⟨fun name => hall (.pointer name) ?_, hall .map ?_⟩
    · cases name <;> decide
    · decide

theorem Tracker.remove_isSome (ptr : Word) (tracker : Tracker) :
    (tracker.remove ptr).gAllocations.isSome = tracker.gAllocations.isSome := by
  simp only [remove, removeAllocation]
  split
  · rfl
  · exact Option.isSome_map

theorem Tracker.add_isSome (room : Bool) (ptr size : Word) (tracker : Tracker) :
    (tracker.add room ptr size).2.gAllocations.isSome = tracker.gAllocations.isSome := by
  by_cases hptr : ptr = nullptr
  · simp [add, addAllocation, hptr]
  · cases hconfig : tracker.config.enableLeakDetection with
    | false => simp [add, addAllocation, hconfig]
    | true =>
        cases hmap : tracker.gAllocations with
        | none => simp [add, addAllocation, hptr, hconfig, hmap]
        | some allocations =>
            by_cases hroom : room = true ∨ ptr ∈ allocations <;>
              simp [add, addAllocation, hptr, hconfig, hmap, insertOrAssign, hroom,
                Except.map]

/-- No hook takes the map away. -/
theorem HookCall.body_isSome {env : HookEnv} {tracker after : Tracker} {call : HookCall}
    {ptr : Option Word} (hbody : call.body env tracker = some (ptr, after)) :
    after.gAllocations.isSome = tracker.gAllocations.isSome := by
  have hstep := HookCall.body_tracker env tracker call
  rw [hbody, Tracker.step_eq_call, Tracker.call_eq, Option.map_some, Option.map_map,
    eq_comm, Option.map_eq_some_iff] at hstep
  obtain ⟨⟨value, heap⟩, -, hsettle⟩ := hstep
  change (Tracker.settle env.room call value { tracker with heap := heap }).2 = after at hsettle
  rw [← hsettle]
  simp only [Tracker.settle, Tracker.add_isSome, Tracker.remove_isSome]

/-- Effects are not undone. -/
theorem HookFrame.Changes.has {env : InitEnv} {frame : HookFrame} {s s' : HookShared}
    (hchanges : frame.Changes env s s') (hfound : env.found = true) (effect : InitEffect)
    (heffect : s.Has effect) : s'.Has effect := by
  rcases frame with ⟨entry, pc⟩
  cases pc with
  | bumping =>
      obtain ⟨call, -, rfl⟩ := hchanges
      cases call with
      | malloc | calloc | free | realloc | memalign | posixMemalign =>
          cases effect <;> exact heffect
  | real =>
      obtain ⟨call, ptr, tracker, -, -, -, hbody, rfl⟩ := hchanges
      cases effect with
      | pointer name => exact heffect
      | map => exact (HookCall.body_isSome hbody).trans heffect
  | mapping =>
      obtain rfl := hchanges
      cases effect with
      | pointer name => exact heffect
      | map => exact rfl
  | resolving rest =>
      cases rest with
      | nil =>
          obtain rfl := hchanges
          cases effect <;> exact heffect
      | cons name rest =>
          obtain rfl := hchanges
          cases effect with
          | map => exact heffect
          | pointer other =>
              change Function.update s.real name env.found other = true
              by_cases hother : other = name
              · rw [hother, Function.update_self]
                exact hfound
              · rw [Function.update_of_ne hother]
                exact heffect
  | testing | testingDlsym | loading | waiting =>
      obtain rfl := hchanges
      exact heffect
  | exchanging | entering | publishing =>
      obtain rfl := hchanges
      cases effect <;> exact heffect

theorem HookWorld.initial_onceInv (buf : BootstrapBuf) :
    (HookWorld.initial Tid buf).OnceInv where
  shallow := fun _ => Nat.zero_le 1
  once := OneTime.Inv.initial initEffects _
  calls := nofun

/-- Only steps of `InitHooks` and the exchange before it lead into `InitHooks`. -/
theorem HookFrame.step_outside {env : InitEnv} {frame : HookFrame} {s s' : HookShared}
    {onward : Option InitPc} (hstep : frame.step env s = some (s', onward))
    (houtside : ¬ frame.pc.Initialising) (hexchange : frame.pc ≠ .exchanging) :
    onward.bind InitPc.remaining = none := by
  cases onward with
  | none => rfl
  | some pc =>
      have hpc : ¬ pc.Initialising := by
        intro hpc
        rcases (HookFrame.step_leadsTo hstep).initialising hpc with hbefore | ⟨hbefore, -⟩
        · exact houtside hbefore
        · exact hexchange hbefore
      cases pc with
      | entering | resolving | mapping | publishing => exact absurd trivial hpc
      | testing | testingDlsym | bumping | loading | exchanging | waiting | real => rfl

/-- A hook that goes on to its real function finds the pointer set. -/
theorem HookFrame.step_calls {place : Tid → Option (List InitEffect)} {t : Tid}
    {env : InitEnv} {frame : HookFrame} {s s' : HookShared} {call : HookCall}
    (honce : OneTime.Inv initEffects s.Has s.hooksInitializing s.hooksInitialized place)
    (hplace : place t = frame.pc.remaining) (hentry : frame.entry = .hook call)
    (hstep : frame.step env s = some (s', some .real)) : s.real call.realName = true := by
  obtain ⟨call', hentry', hread⟩ := HookFrame.step_leadsTo hstep
  obtain rfl := HookEntry.hook.inj (hentry'.symm.trans hentry)
  rcases hread with ⟨-, hreal⟩ | ⟨-, hdone⟩ | hpc
  · exact hreal
  · exact (s.complete_iff.mpr (honce.finished hdone)).1 _
  · rw [hpc] at hplace
    have hall : ∀ effect ∈ initEffects, s.Has effect := fun effect heffect =>
      honce.progress t [] hplace effect heffect List.not_mem_nil
    exact (s.complete_iff.mpr hall).1 _

theorem HookWorld.OnceInv.below_eq_nil {w : HookWorld Tid} {t : Tid} {frame : HookFrame}
    {below : List HookFrame} (hinv : w.OnceInv) (hframes : w.frames t = frame :: below) :
    below = [] := by
  have hlength := hinv.shallow t
  rw [hframes, List.length_cons] at hlength
  exact List.length_eq_zero_iff.mp (by omega)

theorem HookWorld.OnceInv.place_eq {w : HookWorld Tid} {t : Tid} {frame : HookFrame}
    (hinv : w.OnceInv) (hframe : frame ∈ w.frames t) : w.place t = frame.pc.remaining := by
  rw [place]
  cases hframes : w.frames t with
  | nil =>
      rw [hframes] at hframe
      exact absurd hframe List.not_mem_nil
  | cons first below =>
      obtain rfl := hinv.below_eq_nil hframes
      rw [hframes, List.mem_singleton] at hframe
      rw [hframe]
      rfl

variable [DecidableEq Tid]

theorem HookWorld.place_update (w : HookWorld Tid) (shared : HookShared) (t : Tid)
    (frames : List HookFrame) :
    HookWorld.place ⟨shared, Function.update w.frames t frames⟩ =
      Function.update w.place t (frames.head?.bind fun frame => frame.pc.remaining) :=
  Function.comp_update (fun frames : List HookFrame =>
    frames.head?.bind fun frame => frame.pc.remaining) w.frames t frames

theorem HookWorld.shallow_update {w : HookWorld Tid} {t : Tid} {frames : List HookFrame}
    (hshallow : ∀ t, (w.frames t).length ≤ 1) (hframes : frames.length ≤ 1) (t' : Tid) :
    (Function.update w.frames t frames t').length ≤ 1 := by
  by_cases hsame : t' = t
  · rw [hsame, Function.update_self]
    exact hframes
  · rw [Function.update_of_ne hsame]
    exact hshallow t'

/-- The body of the initialisation, through one step of a hook, for effects that the step
does not undo. -/
theorem HookFrame.step_place {effect effect' : InitEffect → Prop}
    {place : Tid → Option (List InitEffect)} {t : Tid} {env : InitEnv} {frame : HookFrame}
    {s s' : HookShared} {onward : Option InitPc}
    (honce : OneTime.Inv initEffects effect s.hooksInitializing s.hooksInitialized place)
    (hplace : place t = frame.pc.remaining) (hkept : ∀ a, effect a → effect' a)
    (hpointer : ∀ name rest, frame.pc = .resolving (name :: rest) → effect' (.pointer name))
    (hmap : frame.pc = .mapping → effect' .map)
    (hstep : frame.step env s = some (s', onward)) :
    OneTime.Inv initEffects effect' s'.hooksInitializing s'.hooksInitialized
      (Function.update place t (onward.bind InitPc.remaining)) := by
  have hchanges := HookFrame.step_changes hstep
  have houtside := HookFrame.step_outside hstep
  rcases frame with ⟨entry, pc⟩
  have hafter : entry.afterEnsureInit.bind InitPc.remaining = none := by
    cases entry <;> rfl
  cases pc with
  | testing | testingDlsym | loading | waiting =>
      obtain rfl := hchanges
      rw [houtside id nofun]
      exact honce.stay nofun hkept
  | bumping =>
      obtain ⟨call, -, rfl⟩ := hchanges
      rw [houtside id nofun]
      cases call <;> exact honce.stay nofun hkept
  | real =>
      obtain ⟨call, ptr, tracker, -, -, -, -, rfl⟩ := hchanges
      rw [houtside id nofun]
      exact honce.stay nofun hkept
  | exchanging =>
      obtain ⟨rfl, rfl⟩ := Prod.mk.inj (Option.some.inj hstep)
      cases hclaimed : s.hooksInitializing with
      | true =>
          rw [hclaimed] at honce
          exact honce.stay nofun hkept
      | false =>
          rw [hclaimed] at honce
          exact (honce.claim t).keep (fun _ _ => id) hkept
  | entering =>
      obtain ⟨rfl, rfl⟩ := Prod.mk.inj (Option.some.inj hstep)
      exact honce.stay (fun _ hrest => hplace.trans hrest) hkept
  | resolving rest =>
      cases rest with
      | nil =>
          obtain ⟨rfl, rfl⟩ := Prod.mk.inj (Option.some.inj hstep)
          exact honce.stay (fun _ hrest => hplace.trans hrest) hkept
      | cons name rest =>
          obtain ⟨rfl, rfl⟩ := Prod.mk.inj (Option.some.inj hstep)
          exact honce.assign hplace (hpointer name rest rfl) hkept
  | mapping =>
      obtain ⟨rfl, rfl⟩ := Prod.mk.inj (Option.some.inj hstep)
      exact honce.assign hplace (hmap rfl) hkept
  | publishing =>
      obtain ⟨rfl, rfl⟩ := Prod.mk.inj (Option.some.inj hstep)
      rw [hafter]
      exact (honce.finish hplace).keep (fun _ _ => id) hkept

theorem HookFrame.step_once {place : Tid → Option (List InitEffect)} {t : Tid}
    {env : InitEnv} {frame : HookFrame} {s s' : HookShared} {onward : Option InitPc}
    (honce : OneTime.Inv initEffects s.Has s.hooksInitializing s.hooksInitialized place)
    (hplace : place t = frame.pc.remaining) (hfound : env.found = true)
    (hstep : frame.step env s = some (s', onward)) :
    OneTime.Inv initEffects s'.Has s'.hooksInitializing s'.hooksInitialized
      (Function.update place t (onward.bind InitPc.remaining)) := by
  have hchanges := HookFrame.step_changes hstep
  apply HookFrame.step_place honce hplace (hchanges.has hfound) ?_ ?_ hstep
  · intro name rest hpc
    rw [Changes, hpc] at hchanges
    obtain rfl := hchanges
    change Function.update s.real name env.found name = true
    rw [Function.update_self, hfound]
  · intro hpc
    rw [Changes, hpc] at hchanges
    obtain rfl := hchanges
    exact rfl

theorem HookWorld.OnceInv.advance {w : HookWorld Tid} (hinv : w.OnceInv) {t : Tid}
    {env : InitEnv} {frame : HookFrame} {below : List HookFrame} {shared : HookShared}
    {onward : Option InitPc} (hframes : w.frames t = frame :: below)
    (hfound : env.found = true)
    (hstep : frame.step env w.shared = some (shared, onward)) :
    HookWorld.OnceInv
      ⟨shared, Function.update w.frames t (settle frame.entry below onward)⟩ := by
  have hplace : w.place t = frame.pc.remaining := by
    rw [place, hframes]
    rfl
  obtain rfl := hinv.below_eq_nil hframes
  have hhead : ((settle frame.entry [] onward).head?.bind fun frame => frame.pc.remaining) =
      onward.bind InitPc.remaining := by
    cases onward <;> rfl
  refine ⟨HookWorld.shallow_update hinv.shallow ?_, ?_, ?_⟩
  · cases onward <;> simp [settle]
  · rw [HookWorld.place_update, hhead]
    exact HookFrame.step_once hinv.once hplace hfound hstep
  · intro t' frame' hframe' call hentry hpc
    refine (HookFrame.step_changes hstep).has hfound (.pointer call.realName) ?_
    rcases mem_frames_advance hframes hframe' with ⟨pc, rfl, rfl⟩ | hframe'
    · obtain rfl := hpc
      exact HookFrame.step_calls hinv.once hplace hentry hstep
    · exact hinv.calls t' frame' hframe' call hentry hpc

theorem HookWorld.OnceInv.enter {w : HookWorld Tid} (hinv : w.OnceInv) {t : Tid}
    {entry : HookEntry} {shared : HookShared} (hframes : w.frames t = [])
    (hclaim : w.shared.claim entry = some shared) :
    HookWorld.OnceInv ⟨shared, Function.update w.frames t [⟨entry, entry.start⟩]⟩ := by
  have hstart : entry.start.remaining = none ∧ entry.start ≠ .real := by
    cases entry with
    | hook | init => exact ⟨rfl, nofun⟩
  have hsame : ∃ owned, shared = { w.shared with owned := owned } := by
    rcases HookShared.claim_cases hclaim with ⟨-, rfl⟩ | ⟨ptr, -, -, rfl⟩
    · exact ⟨w.shared.owned, rfl⟩
    · exact ⟨_, rfl⟩
  obtain ⟨owned, rfl⟩ := hsame
  refine ⟨HookWorld.shallow_update hinv.shallow (Nat.le_refl 1), ?_, ?_⟩
  · rw [HookWorld.place_update]
    refine hinv.once.stay (fun rest hrest => ?_) fun effect => ?_
    · exact absurd (hstart.1.symm.trans hrest) nofun
    · cases effect <;> exact id
  · intro t' frame' hframe' call hentry hpc
    rw [← hframes] at hframe'
    rcases mem_frames_enter hframe' with rfl | hframe'
    · exact absurd hpc hstart.2
    · exact hinv.calls t' frame' hframe' call hentry hpc

/-- Every step preserves the invariant. -/
theorem HookWorld.onceStep_inv {w next : HookWorld Tid} {label : OnceMove Tid}
    (hinv : w.OnceInv) (hlooks : w.LooksUp label) (hstep : w.onceStep label = some next) :
    next.OnceInv := by
  cases label with
  | move label =>
      rcases label with ⟨t, move⟩
      rcases HookWorld.step_cases hstep with ⟨config, rfl, rfl⟩ |
        ⟨entry, shared, rfl, -, hclaim, rfl⟩ |
        ⟨env, frame, below, shared, onward, rfl, hframes, hframe, rfl⟩
      · refine ⟨hinv.shallow, hinv.once.keep (fun _ _ => id) fun effect => ?_, hinv.calls⟩
        cases effect <;> exact id
      · have hframes : w.frames t = [] := hlooks
        simp only [hframes]
        exact hinv.enter hframes hclaim
      · exact hinv.advance hframes hlooks hframe
  | allocateThrows t =>
      obtain ⟨entry, below, hframes, rfl⟩ := HookWorld.throws_cases hstep
      obtain rfl := hinv.below_eq_nil hframes
      refine ⟨HookWorld.shallow_update hinv.shallow (Nat.zero_le 1), ?_, ?_⟩
      · rw [HookWorld.place_update w w.shared]
        exact hinv.once.stay nofun fun _ => id
      · intro t' frame' hframe' call hentry hpc
        exact hinv.calls t' frame' (mem_frames_pop hframes hframe') call hentry hpc

/-- Entering `InitHooks` is what no other thread is about to do. -/
theorem HookWorld.entered_of_enters {w next : HookWorld Tid} {label : OnceMove Tid}
    (hinv : w.OnceInv) (henters : w.entersInitHooks label = true)
    (hstep : w.onceStep label = some next) : next.Entered := by
  cases label with
  | allocateThrows t => simp [entersInitHooks] at henters
  | move label =>
      rcases label with ⟨t, move⟩
      simp only [entersInitHooks] at henters
      split at henters
      next env entry below hframes =>
        have htop : (⟨entry, .entering⟩ : HookFrame) ∈ w.frames t := by
          rw [hframes]
          exact List.mem_cons_self
        have hplace : w.place t = some initEffects := hinv.place_eq htop
        obtain rfl := hinv.below_eq_nil hframes
        simp only [onceStep, HookWorld.step, hframes, HookFrame.step, Option.map_some,
          Option.some.injEq] at hstep
        obtain rfl := hstep
        refine ⟨hinv.once.entered t initEffects hplace, ?_⟩
        intro t' frame' hframe' hpc
        by_cases hsame : t' = t
        · subst t'
          simp only [Function.update_self, settle, List.mem_singleton] at hframe'
          rw [hframe'] at hpc
          contradiction
        · simp only [Function.update_of_ne hsame] at hframe'
          have hplace' : w.place t' = some initEffects := by
            rw [hinv.place_eq hframe', hpc]
            rfl
          exact hsame (hinv.once.alone t' t _ _ hplace' hplace)
      next => contradiction

/-- Nothing leads back to the entry of `InitHooks`. -/
theorem HookWorld.Entered.step {w next : HookWorld Tid} {label : OnceMove Tid}
    (hentered : w.Entered) (hstep : w.onceStep label = some next) :
    next.Entered ∧ w.entersInitHooks label = false := by
  obtain ⟨hstarted, hnone⟩ := hentered
  cases label with
  | allocateThrows t =>
      obtain ⟨entry, below, hframes, rfl⟩ := HookWorld.throws_cases hstep
      refine ⟨⟨hstarted, ?_⟩, rfl⟩
      intro t' frame' hframe'
      exact hnone t' frame' (mem_frames_pop hframes hframe')
  | move label =>
      rcases label with ⟨t, move⟩
      refine ⟨?_, ?_⟩
      · rcases HookWorld.step_cases hstep with ⟨config, rfl, rfl⟩ |
          ⟨entry, shared, rfl, -, hclaim, rfl⟩ |
          ⟨env, frame, below, shared, onward, rfl, hframes, hframe, rfl⟩
        · exact ⟨hstarted, hnone⟩
        · refine ⟨?_, ?_⟩
          · rcases HookShared.claim_cases hclaim with ⟨-, rfl⟩ | ⟨ptr, -, -, rfl⟩ <;>
              exact hstarted
          · intro t' frame' hframe'
            rcases mem_frames_enter hframe' with rfl | hframe'
            · cases entry <;> exact nofun
            · exact hnone t' frame' hframe'
        · refine ⟨(HookFrame.step_changes hframe).started hstarted, ?_⟩
          intro t' frame' hframe' hpc
          rcases mem_frames_advance hframes hframe' with ⟨pc, rfl, rfl⟩ | hframe'
          · obtain rfl := hpc
            have hread := (HookFrame.step_leadsTo hframe).2
            rw [hstarted] at hread
            contradiction
          · exact hnone t' frame' hframe' hpc
      · simp only [entersInitHooks]
        split
        next env entry below hframes =>
          refine absurd rfl (hnone t ⟨entry, .entering⟩ ?_)
          rw [hframes]
          exact List.mem_cons_self
        next => rfl

/-- What the initialisation promises in a state: no call through a null pointer, and no
return from `EnsureInit` before everything is set. -/
structure HookWorld.Ready (w : HookWorld Tid) : Prop where
  calls : w.CallsSet
  returns : ∀ label next, w.ReturnsFromEnsureInit label → w.onceStep label = some next →
    next.shared.Complete

theorem HookWorld.OnceInv.ready {w : HookWorld Tid} (hinv : w.OnceInv) : w.Ready := by
  refine ⟨hinv.calls, ?_⟩
  rintro label next ⟨t, env, frame, below, rfl, hframes, hreturns⟩ hstep
  have htop : frame ∈ w.frames t := by
    rw [hframes]
    exact List.mem_cons_self
  have hcomplete : w.shared.Complete := by
    rw [HookShared.complete_iff]
    rcases hreturns with ⟨-, hdone⟩ | ⟨-, hdone⟩ | hpc
    · exact hinv.once.finished hdone
    · exact hinv.once.finished hdone
    · intro effect heffect
      have hplace : w.place t = some [] := by
        rw [hinv.place_eq htop, hpc]
        rfl
      exact hinv.once.progress t [] hplace effect heffect List.not_mem_nil
  simp only [onceStep, HookWorld.step, hframes, Option.map_eq_some_iff] at hstep
  obtain ⟨⟨shared, onward⟩, hframe, rfl⟩ := hstep
  have hchanges := HookFrame.step_changes hframe
  rcases frame with ⟨entry, pc⟩
  rcases hreturns with ⟨hpc, -⟩ | ⟨hpc, -⟩ | hpc
  all_goals
    obtain rfl := hpc
    obtain rfl := hchanges
    exact hcomplete

/-- Every state that the hooks reach is ready, and `InitHooks` is entered at most once on
the way there. -/
theorem HookWorld.run_once {buf : BootstrapBuf} {labels : List (OnceMove Tid)}
    {final : HookWorld Tid}
    (hlooks : Along HookWorld.onceStep HookWorld.LooksUp (HookWorld.initial Tid buf) labels)
    (hrun : run HookWorld.onceStep (HookWorld.initial Tid buf) labels = some final) :
    final.Ready ∧ stepsWhere HookWorld.onceStep HookWorld.entersInitHooks
      (HookWorld.initial Tid buf) labels ≤ 1 := by
  have hinitial : (HookWorld.initial Tid buf).OnceInv := HookWorld.initial_onceInv buf
  refine ⟨?_, ?_⟩
  · have hfinal : final.OnceInv := run_invariant_along
      (fun _ _ _ hinv hlooks hstep => HookWorld.onceStep_inv hinv hlooks hstep) hinitial
      hlooks hrun
    exact hfinal.ready
  · exact (stepsWhere_le_one HookWorld.OnceInv HookWorld.Entered
      (fun _ _ _ hinv hlooks hstep => HookWorld.onceStep_inv hinv hlooks hstep)
      (fun _ _ _ hinv _ henters hstep => HookWorld.entered_of_enters hinv henters hstep)
      (fun _ _ _ _ _ hentered hstep => hentered.step hstep) hinitial hlooks).1

end Domovoy
