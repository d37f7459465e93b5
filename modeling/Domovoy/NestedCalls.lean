/-
The hooked calls that `dlsym` makes inside the lookups of `InitHooks`: which of them
return, and which wait for the initialisation that they are part of.
-/
import Domovoy.HookOnce

namespace Domovoy

open WordAlign Transition

/-- The hook answers without its real function. -/
def HookCall.Bootstraps (buf : BootstrapBuf) : HookCall → Prop
  | .malloc _ => True
  | .calloc _ _ => True
  | .free ptr => buf.Holds ptr
  | _ => False

/-- A call inside a lookup is answered from the bootstrap buffer or by a real function
that an earlier lookup has found. -/
def HookShared.Answers (s : HookShared) (call : HookCall) : Prop :=
  s.real call.realName = true ∨ call.Bootstraps s.buf

/-- Where a call inside a lookup may stand. -/
def HookShared.Shelters (s : HookShared) (call : HookCall) : InitPc → Prop
  | .testing => s.Answers call
  | .testingDlsym => True
  | .bumping => True
  | .real => s.real call.realName = true
  | _ => False

/-- A call inside a lookup that does not return. -/
def HookShared.Dooms (s : HookShared) (call : HookCall) : InitPc → Prop
  | .testing => ¬ s.Answers call
  | .loading => True
  | .exchanging => True
  | .waiting => True
  | .real => s.real call.realName = false
  | _ => False

/-- A thread is in one call at most, or in a hook that a lookup has called. -/
inductive Nesting : List HookFrame → Prop
  | idle : Nesting []
  | single (frame : HookFrame) : Nesting [frame]
  | nested (call : HookCall) (pc : InitPc) (entry : HookEntry) (name : RealName)
      (rest : List RealName) (houtside : ¬ pc.Initialising) :
      Nesting [⟨.hook call, pc⟩, ⟨entry, .resolving (name :: rest)⟩]

variable {Tid : Type}

/-- What the outermost call of a thread still has to do in `InitHooks`. -/
def unfinished (frames : List HookFrame) : Option (List InitEffect) :=
  frames.getLast?.bind fun frame => frame.pc.remaining

structure HookWorld.NestInv (w : HookWorld Tid) : Prop where
  nesting : ∀ t, Nesting (w.frames t)
  once : OneTime.Inv initEffects (fun _ => True) w.shared.hooksInitializing
    w.shared.hooksInitialized (fun t => unfinished (w.frames t))
  dlsym : ∀ t, ∀ frame ∈ w.frames t, ∀ rest, frame.pc = .resolving rest →
    w.shared.inDlsym = true

/-- Every call inside a lookup stands where it will return from. -/
def HookWorld.Sheltered (w : HookWorld Tid) : Prop :=
  ∀ t call pc below, w.frames t = ⟨.hook call, pc⟩ :: below → below ≠ [] →
    w.shared.Shelters call pc

/-- A call that is made inside a lookup is answered without `EnsureInit`. -/
def HookWorld.NestedAnswered (w : HookWorld Tid) (label : OnceMove Tid) : Prop :=
  ∀ t call, label = .move ⟨t, .enter (.hook call)⟩ → w.frames t ≠ [] →
    w.shared.Answers call

theorem InitPc.remaining_isSome_iff {pc : InitPc} :
    (∃ rest, pc.remaining = some rest) ↔ pc.Initialising := by
  cases pc <;> simp [remaining, Initialising]

/-- A step outside `InitHooks` changes nothing of the initialisation. -/
theorem HookFrame.Changes.outside {env : InitEnv} {frame : HookFrame} {s s' : HookShared}
    (hchanges : frame.Changes env s s') (houtside : ¬ frame.pc.Initialising) :
    s'.real = s.real ∧ s'.inDlsym = s.inDlsym ∧
      s'.hooksInitialized = s.hooksInitialized := by
  rcases frame with ⟨entry, pc⟩
  cases pc with
  | testing | testingDlsym | loading | exchanging | waiting =>
      obtain rfl := hchanges
      exact ⟨rfl, rfl, rfl⟩
  | bumping =>
      obtain ⟨call, -, rfl⟩ := hchanges
      cases call <;> exact ⟨rfl, rfl, rfl⟩
  | real =>
      obtain ⟨call, ptr, tracker, -, -, -, -, rfl⟩ := hchanges
      exact ⟨rfl, rfl, rfl⟩
  | entering | resolving | mapping | publishing => exact absurd trivial houtside

/-- `in_dlsym` is only reset behind the last lookup. -/
theorem HookFrame.Changes.inDlsym {env : InitEnv} {frame : HookFrame} {s s' : HookShared}
    (hchanges : frame.Changes env s s') (hpc : frame.pc ≠ .resolving [])
    (hdlsym : s.inDlsym = true ∨ frame.pc = .entering) : s'.inDlsym = true := by
  by_cases houtside : frame.pc.Initialising
  · rcases frame with ⟨entry, pc⟩
    cases pc with
    | entering =>
        obtain rfl := hchanges
        rfl
    | resolving rest =>
        cases rest with
        | nil => exact absurd rfl hpc
        | cons name rest =>
            obtain rfl := hchanges
            exact hdlsym.resolve_right nofun
    | mapping | publishing =>
        obtain rfl := hchanges
        exact hdlsym.resolve_right nofun
    | testing | testingDlsym | bumping | loading | exchanging | waiting | real =>
        exact houtside.elim
  · rw [(hchanges.outside houtside).2.1]
    refine hdlsym.resolve_right ?_
    intro hentering
    rw [hentering] at houtside
    exact houtside trivial

/-- A call in `InitHooks` is the outermost of its thread. -/
theorem Nesting.unfinished_of_mem {frames : List HookFrame} (hnesting : Nesting frames)
    {frame : HookFrame} (hframe : frame ∈ frames) (hpc : frame.pc.Initialising) :
    ∃ rest, unfinished frames = some rest := by
  obtain ⟨rest, hrest⟩ := InitPc.remaining_isSome_iff.mpr hpc
  refine ⟨rest, ?_⟩
  cases hnesting with
  | idle => exact absurd hframe List.not_mem_nil
  | single =>
      obtain rfl := List.mem_singleton.mp hframe
      exact hrest
  | nested call pc entry name others houtside =>
      rcases List.mem_cons.mp hframe with rfl | hbelow
      · exact absurd hpc houtside
      · obtain rfl := List.mem_singleton.mp hbelow
        exact hrest

/-- The innermost call of a thread goes on. -/
theorem Nesting.settle {frame : HookFrame} {below : List HookFrame}
    (hnesting : Nesting (frame :: below)) {onward : Option InitPc}
    (honward : ∀ pc, onward = some pc → below ≠ [] → ¬ pc.Initialising) :
    Nesting (settle frame.entry below onward) := by
  cases hnesting with
  | single =>
      cases onward with
      | none => exact .idle
      | some pc => exact .single _
  | nested call pc entry name rest houtside =>
      cases onward with
      | none => exact .single _
      | some pc' => exact .nested call pc' entry name rest (honward pc' rfl (by simp))

theorem unfinished_settle {frame : HookFrame} {below : List HookFrame} {onward : Option InitPc}
    (hbelow : below ≠ []) : unfinished (settle frame.entry below onward) = unfinished below := by
  cases onward with
  | none => rfl
  | some pc => rw [settle, unfinished, List.getLast?_cons_of_ne_nil hbelow, unfinished]

variable {w next : HookWorld Tid}

theorem HookWorld.initial_nestInv (buf : BootstrapBuf) :
    (HookWorld.initial Tid buf).NestInv where
  nesting := fun _ => .idle
  once := OneTime.Inv.initial initEffects _
  dlsym := nofun

/-- Only the initialising thread is in `InitHooks`. -/
theorem HookWorld.NestInv.alone (hinv : w.NestInv) {t t' : Tid} {frame frame' : HookFrame}
    (hframe : frame ∈ w.frames t) (hpc : frame.pc.Initialising)
    (hframe' : frame' ∈ w.frames t') (hpc' : frame'.pc.Initialising) : t = t' := by
  obtain ⟨rest, hrest⟩ := (hinv.nesting t).unfinished_of_mem hframe hpc
  obtain ⟨rest', hrest'⟩ := (hinv.nesting t').unfinished_of_mem hframe' hpc'
  exact hinv.once.alone t t' rest rest' hrest hrest'

/-- A call inside a lookup, and the lookup it is inside. -/
theorem HookWorld.NestInv.nested (hinv : w.NestInv) {t : Tid} {frame : HookFrame}
    {below : List HookFrame} (hframes : w.frames t = frame :: below) (hbelow : below ≠ []) :
    ¬ frame.pc.Initialising ∧ (∃ call, frame.entry = .hook call) ∧
      ∃ outer ∈ w.frames t, outer.pc.Initialising ∧ ∃ name rest,
        outer.pc = .resolving (name :: rest) := by
  have hnesting := hinv.nesting t
  rw [hframes] at hnesting ⊢
  cases hnesting with
  | single => contradiction
  | nested call pc entry name rest houtside =>
      refine ⟨houtside, ⟨call, rfl⟩, ⟨entry, .resolving (name :: rest)⟩, by simp, trivial, ?_⟩
      exact ⟨name, rest, rfl⟩

/-- While a lookup calls a hook, `EnsureInit` finds the initialisation under way. -/
theorem HookWorld.NestInv.flags (hinv : w.NestInv) {t : Tid} {frame : HookFrame}
    (hframe : frame ∈ w.frames t) (hpc : frame.pc.Initialising) :
    w.shared.hooksInitializing = true ∧ w.shared.hooksInitialized = false := by
  obtain ⟨rest, hrest⟩ := (hinv.nesting t).unfinished_of_mem hframe hpc
  exact ⟨hinv.once.entered t rest hrest, hinv.once.running t rest hrest⟩

/-- While a call is inside a lookup no other thread sets a pointer. -/
theorem HookWorld.NestInv.frame_other (hinv : w.NestInv) {t t' : Tid} {env : InitEnv}
    {frame frame' : HookFrame} {below below' : List HookFrame} {shared : HookShared}
    {onward : Option InitPc} (hframes : w.frames t = frame :: below)
    (hstep : frame.step env w.shared = some (shared, onward))
    (hframes' : w.frames t' = frame' :: below') (hbelow' : below' ≠ []) (ht : t' ≠ t) :
    shared.real = w.shared.real ∧ shared.buf.base = w.shared.buf.base := by
  have hchanges := HookFrame.step_changes hstep
  obtain ⟨-, -, outer, houter, hpc, -⟩ := hinv.nested hframes' hbelow'
  refine ⟨(hchanges.outside fun hinside => ?_).1, hchanges.base⟩
  exact ht (hinv.alone houter hpc (by simp [hframes]) hinside)

/-- The exception leaves a call that no lookup has made. -/
theorem HookWorld.NestInv.below_eq_nil (hinv : w.NestInv) {t : Tid} {entry : HookEntry}
    {below : List HookFrame} (hframes : w.frames t = ⟨entry, .mapping⟩ :: below) :
    below = [] := by
  by_contra hbelow
  exact (hinv.nested hframes hbelow).1 trivial

variable [DecidableEq Tid]

/-- One step of one thread, for calls with any arguments; a lookup calls hooks only. -/
def HookWorld.anyStep (w : HookWorld Tid) : OnceMove Tid → Option (HookWorld Tid)
  | .move ⟨t, .enter entry⟩ =>
      if canEnter (w.frames t) ∧ (entry = .init → w.frames t = []) then
        some { w with
          frames := Function.update w.frames t (⟨entry, entry.start⟩ :: w.frames t) }
      else none
  | label => w.onceStep label

theorem HookWorld.anyStep_cases {label : OnceMove Tid} (hstep : w.anyStep label = some next) :
    (∃ t config, label = .move ⟨t, .configure config⟩ ∧
        next = { w with shared.tracker.config := config }) ∨
      (∃ t entry, label = .move ⟨t, .enter entry⟩ ∧ canEnter (w.frames t) = true ∧
        (entry = .init → w.frames t = []) ∧
          next = ⟨w.shared, Function.update w.frames t
            (⟨entry, entry.start⟩ :: w.frames t)⟩) ∨
      (∃ t env frame below shared onward, label = .move ⟨t, .advance env⟩ ∧
        w.frames t = frame :: below ∧ frame.step env w.shared = some (shared, onward) ∧
          next = ⟨shared, Function.update w.frames t (settle frame.entry below onward)⟩) ∨
      ∃ t entry below, label = .allocateThrows t ∧
        w.frames t = ⟨entry, .mapping⟩ :: below ∧
          next = ⟨w.shared, Function.update w.frames t below⟩ := by
  cases label with
  | allocateThrows t =>
      obtain ⟨entry, below, hframes, rfl⟩ := HookWorld.throws_cases hstep
      exact Or.inr (Or.inr (Or.inr ⟨t, entry, below, rfl, hframes, rfl⟩))
  | move label =>
      rcases label with ⟨t, move⟩
      cases move with
      | enter entry =>
          simp only [anyStep, Option.ite_none_right_eq_some, Option.some.injEq] at hstep
          obtain ⟨⟨hcan, hinit⟩, rfl⟩ := hstep
          exact Or.inr (Or.inl ⟨t, entry, rfl, hcan, hinit, rfl⟩)
      | advance env =>
          rcases HookWorld.step_cases hstep with ⟨_, hother, -⟩ | ⟨_, _, hother, -⟩ |
            ⟨env', frame, below, shared, onward, hother, hrest⟩
          · cases hother
          · cases hother
          · obtain rfl := InitMove.advance.inj hother
            exact Or.inr (Or.inr (Or.inl ⟨t, env, frame, below, shared, onward, rfl, hrest⟩))
      | configure config =>
          rcases HookWorld.step_cases hstep with ⟨config', hother, hnext⟩ |
            ⟨_, _, hother, -⟩ | ⟨_, _, _, _, _, hother, -⟩
          · obtain rfl := InitMove.configure.inj hother
            exact Or.inl ⟨t, config, rfl, hnext⟩
          · cases hother
          · cases hother

theorem HookWorld.NestInv.enter (hinv : w.NestInv) {t : Tid} {entry : HookEntry}
    (hcan : canEnter (w.frames t) = true) (hinit : entry = .init → w.frames t = []) :
    HookWorld.NestInv
      ⟨w.shared, Function.update w.frames t (⟨entry, entry.start⟩ :: w.frames t)⟩ := by
  have hnew : Nesting (⟨entry, entry.start⟩ :: w.frames t) ∧
      unfinished (⟨entry, entry.start⟩ :: w.frames t) = unfinished (w.frames t) := by
    have hnesting := hinv.nesting t
    revert hnesting hcan hinit
    generalize w.frames t = frames
    intro hcan hinit hnesting
    cases hnesting with
    | idle => exact ⟨.single _, by cases entry <;> rfl⟩
    | single frame =>
        cases entry with
        | init => exact absurd (hinit rfl) (by simp)
        | hook call =>
            rcases frame with ⟨outer, pc⟩
            cases pc with
            | resolving rest =>
                cases rest with
                | nil => contradiction
                | cons name rest => exact ⟨.nested call .testing outer name rest id, rfl⟩
            | testing | testingDlsym | bumping | loading | exchanging | waiting | entering
              | mapping | publishing | real => contradiction
    | nested call pc outer name rest houtside =>
        cases pc with
        | resolving => exact absurd trivial houtside
        | testing | testingDlsym | bumping | loading | exchanging | waiting | entering
          | mapping | publishing | real => contradiction
  refine ⟨?_, ?_, ?_⟩
  · intro t'
    by_cases ht : t' = t
    · rw [ht]
      simpa using hnew.1
    · simpa [Function.update_of_ne ht] using hinv.nesting t'
  · apply hinv.once.keep _ (fun _ => id)
    intro t' rest hrest
    by_cases ht : t' = t
    · rw [ht] at hrest ⊢
      simpa [hnew.2] using hrest
    · simpa [Function.update_of_ne ht] using hrest
  · intro t' frame hframe rest hpc
    rcases mem_frames_enter hframe with rfl | hold
    · cases entry <;> cases hpc
    · exact hinv.dlsym t' frame hold rest hpc

/-- Where the initialisation stands once the innermost call of a thread has gone on. -/
theorem HookWorld.NestInv.once_advance (hinv : w.NestInv) {t : Tid} {env : InitEnv}
    {frame : HookFrame} {below : List HookFrame} {shared : HookShared}
    {onward : Option InitPc} (hframes : w.frames t = frame :: below)
    (hstep : frame.step env w.shared = some (shared, onward)) :
    OneTime.Inv initEffects (fun _ => True) shared.hooksInitializing
      shared.hooksInitialized (fun t' => unfinished
        (Function.update w.frames t (settle frame.entry below onward) t')) := by
  have hplaces : (fun t' => unfinished
      (Function.update w.frames t (settle frame.entry below onward) t')) =
        Function.update (fun t => unfinished (w.frames t)) t
          (unfinished (settle frame.entry below onward)) :=
    Function.comp_update unfinished w.frames t _
  rw [hplaces]
  by_cases hbelow : below = []
  · subst hbelow
    have hsettled : unfinished (settle frame.entry [] onward) =
        onward.bind InitPc.remaining := by
      cases onward <;> rfl
    have hplace : unfinished (w.frames t) = frame.pc.remaining := by
      rw [hframes]
      rfl
    rw [hsettled]
    exact HookFrame.step_place hinv.once hplace (fun _ => id) (fun _ _ _ => trivial)
      (fun _ => trivial) hstep
  · have hchanges := HookFrame.step_changes hstep
    obtain ⟨houtside, -, outer, houter, hpc, -⟩ := hinv.nested hframes hbelow
    have hflags := hinv.flags houter hpc
    have hsame : unfinished (settle frame.entry below onward) = unfinished (w.frames t) := by
      rw [unfinished_settle hbelow, hframes, unfinished, unfinished,
        List.getLast?_cons_of_ne_nil hbelow]
    rw [hsame, Function.update_eq_self, (hchanges.outside houtside).2.2,
      hchanges.started hflags.1, ← hflags.1]
    exact hinv.once

theorem HookWorld.NestInv.advance (hinv : w.NestInv) {t : Tid} {env : InitEnv}
    {frame : HookFrame} {below : List HookFrame} {shared : HookShared}
    {onward : Option InitPc} (hframes : w.frames t = frame :: below)
    (hstep : frame.step env w.shared = some (shared, onward)) :
    HookWorld.NestInv
      ⟨shared, Function.update w.frames t (settle frame.entry below onward)⟩ := by
  have hchanges := HookFrame.step_changes hstep
  have hmem : frame ∈ w.frames t := by simp [hframes]
  have hlookup : ∀ pc rest, onward = some pc → pc = .resolving rest →
      frame.pc = .entering ∨ ∃ name, frame.pc = .resolving (name :: rest) := by
    rintro pc rest rfl rfl
    exact (HookFrame.step_leadsTo hstep).imp_left And.left
  refine ⟨?_, hinv.once_advance hframes hstep, ?_⟩
  · intro t'
    change Nesting (Function.update w.frames t (settle frame.entry below onward) t')
    by_cases ht : t' = t
    · rw [ht, Function.update_self]
      have hnesting := hinv.nesting t
      rw [hframes] at hnesting
      apply hnesting.settle
      rintro pc rfl hbelow hpc
      obtain ⟨houtside, -, outer, houter, houterPc, -⟩ := hinv.nested hframes hbelow
      rcases (HookFrame.step_leadsTo hstep).initialising hpc with hbefore | ⟨-, hfree⟩
      · exact houtside hbefore
      · rw [(hinv.flags houter houterPc).1] at hfree
        contradiction
    · rw [Function.update_of_ne ht]
      exact hinv.nesting t'
  · intro t' frame' hframe' rest hpc
    change frame' ∈ Function.update w.frames t (settle frame.entry below onward) t' at hframe'
    by_cases hlast : frame.pc = .resolving []
    · -- The last lookup is over: no thread is in one any more.
      have hinside : frame.pc.Initialising := by
        rw [hlast]
        trivial
      have hinside' : frame'.pc.Initialising := by
        rw [hpc]
        trivial
      by_cases ht : t' = t
      · rw [ht, Function.update_self, mem_settle] at hframe'
        rcases hframe' with ⟨pc, honward, rfl⟩ | hbelow
        · rcases hlookup pc rest honward hpc with hbefore | ⟨name, hbefore⟩
          · rw [hlast] at hbefore
            cases hbefore
          · rw [hlast] at hbefore
            cases hbefore
        · exact absurd hinside (hinv.nested hframes (List.ne_nil_of_mem hbelow)).1
      · rw [Function.update_of_ne ht] at hframe'
        exact absurd (hinv.alone hframe' hinside' hmem hinside) ht
    · rcases mem_frames_advance hframes hframe' with ⟨pc, honward, rfl⟩ | hold
      · rcases hlookup pc rest honward hpc with hbefore | ⟨name, hbefore⟩
        · exact hchanges.inDlsym hlast (Or.inr hbefore)
        · exact hchanges.inDlsym hlast (Or.inl (hinv.dlsym t frame hmem _ hbefore))
      · exact hchanges.inDlsym hlast (Or.inl (hinv.dlsym t' frame' hold rest hpc))

theorem HookWorld.NestInv.throws (hinv : w.NestInv) {t : Tid} {entry : HookEntry}
    (hframes : w.frames t = [⟨entry, .mapping⟩]) :
    HookWorld.NestInv ⟨w.shared, Function.update w.frames t []⟩ where
  nesting := by
    intro t'
    change Nesting (Function.update w.frames t [] t')
    by_cases ht : t' = t
    · rw [ht, Function.update_self]
      exact .idle
    · rw [Function.update_of_ne ht]
      exact hinv.nesting t'
  once := by
    have hplaces : (fun t' => unfinished (Function.update w.frames t [] t')) =
        Function.update (fun t => unfinished (w.frames t)) t none :=
      Function.comp_update unfinished w.frames t []
    rw [hplaces]
    exact hinv.once.stay nofun fun _ => id
  dlsym := fun t' frame hframe =>
    hinv.dlsym t' frame (mem_frames_pop hframes hframe)

theorem HookWorld.anyStep_nestInv {label : OnceMove Tid} (hinv : w.NestInv)
    (hstep : w.anyStep label = some next) : next.NestInv := by
  rcases HookWorld.anyStep_cases hstep with
    ⟨t, config, -, rfl⟩ | ⟨t, entry, -, hcan, hinit, rfl⟩ |
      ⟨t, env, frame, below, shared, onward, -, hframes, hframe, rfl⟩ |
      ⟨t, entry, below, -, hframes, rfl⟩
  · exact ⟨hinv.nesting, hinv.once, hinv.dlsym⟩
  · exact hinv.enter hcan hinit
  · exact hinv.advance hframes hframe
  · obtain rfl := hinv.below_eq_nil hframes
    exact hinv.throws hframes

/-- A step of another thread, or of the configuration, makes no difference to a call
inside a lookup. -/
theorem HookShared.answers_congr {s s' : HookShared} (hreal : s'.real = s.real)
    (hbase : s'.buf.base = s.buf.base) (call : HookCall) : s'.Answers call ↔ s.Answers call := by
  rw [Answers, Answers, hreal]
  cases call with
  | free ptr => exact or_congr_right (BootstrapBuf.holds_congr hbase ptr)
  | malloc | calloc | realloc | memalign | posixMemalign => exact Iff.rfl

theorem HookShared.shelters_congr {s s' : HookShared} (hreal : s'.real = s.real)
    (hbase : s'.buf.base = s.buf.base) (call : HookCall) (pc : InitPc) :
    s'.Shelters call pc ↔ s.Shelters call pc := by
  cases pc with
  | testing => exact HookShared.answers_congr hreal hbase call
  | real => rw [Shelters, Shelters, hreal]
  | testingDlsym | bumping | loading | exchanging | waiting | entering | resolving | mapping
    | publishing => exact Iff.rfl

theorem HookShared.dooms_congr {s s' : HookShared} (hreal : s'.real = s.real)
    (hbase : s'.buf.base = s.buf.base) (call : HookCall) (pc : InitPc) :
    s'.Dooms call pc ↔ s.Dooms call pc := by
  cases pc with
  | testing => exact not_congr (HookShared.answers_congr hreal hbase call)
  | real => rw [Dooms, Dooms, hreal]
  | testingDlsym | bumping | loading | exchanging | waiting | entering | resolving | mapping
    | publishing => exact Iff.rfl

theorem HookShared.shelters_or_dooms {s : HookShared} {call : HookCall} {pc : InitPc}
    (houtside : ¬ pc.Initialising) : s.Shelters call pc ∨ s.Dooms call pc := by
  cases pc with
  | testing => exact Classical.em _
  | testingDlsym | bumping => exact Or.inl trivial
  | loading | exchanging | waiting => exact Or.inr trivial
  | real =>
      cases hreal : s.real call.realName with
      | true => exact Or.inl hreal
      | false => exact Or.inr hreal
  | entering | resolving | mapping | publishing => exact absurd trivial houtside

/-- What the first test of a hook comes to. -/
theorem HookShared.testReal_cases (s : HookShared) (call : HookCall) :
    s.real call.realName = true ∧ s.testReal call = some .real ∨
      call.Bootstraps s.buf ∧
        (s.testReal call = some .testingDlsym ∨ s.testReal call = none) ∨
      ¬ s.Answers call ∧ s.testReal call = some .loading := by
  by_cases hreal : s.real call.realName = true
  · exact Or.inl ⟨hreal, by rw [testReal.eq_def, if_pos hreal]⟩
  · rw [testReal.eq_def, if_neg hreal]
    have hanswers : s.Answers call ↔ call.Bootstraps s.buf :=
      ⟨fun h => h.resolve_left hreal, Or.inr⟩
    rw [hanswers]
    cases call with
    | malloc | calloc => exact Or.inr (Or.inl ⟨trivial, Or.inl rfl⟩)
    | free ptr =>
        by_cases hholds : s.buf.Holds ptr
        · exact Or.inr (Or.inl ⟨hholds, Or.inr (if_pos hholds)⟩)
        · exact Or.inr (Or.inr ⟨hholds, if_neg hholds⟩)
    | realloc | memalign | posixMemalign => exact Or.inr (Or.inr ⟨id, rfl⟩)

/-- What a call inside a lookup goes on to when the bootstrap branch or an earlier lookup
answers it. -/
theorem HookShared.Shelters.step {s s' : HookShared} {call : HookCall} {pc pc' : InitPc}
    {env : InitEnv} (hdlsym : s.inDlsym = true) (hshelters : s.Shelters call pc)
    (hstep : HookFrame.step env ⟨.hook call, pc⟩ s = some (s', some pc')) :
    s'.Shelters call pc' := by
  cases pc with
  | testing =>
      obtain ⟨rfl, htest⟩ := Prod.mk.inj (Option.some.inj hstep)
      rcases s.testReal_cases call with
        ⟨hreal, hgoes⟩ | ⟨-, hgoes | hgoes⟩ | ⟨hnot, -⟩
      · rw [hgoes] at htest
        obtain rfl := Option.some.inj htest
        exact hreal
      · rw [hgoes] at htest
        obtain rfl := Option.some.inj htest
        exact trivial
      · rw [hgoes] at htest
        cases htest
      · exact absurd hshelters hnot
  | testingDlsym =>
      obtain ⟨rfl, hpc⟩ := Prod.mk.inj (Option.some.inj hstep)
      rw [hdlsym] at hpc
      obtain rfl := Option.some.inj hpc
      exact trivial
  | bumping => exact absurd (Prod.mk.inj (Option.some.inj hstep)).2 (by simp)
  | real => exact absurd (HookFrame.step_leadsTo hstep) (by cases pc' <;> simp [HookFrame.LeadsTo])
  | loading | exchanging | waiting | entering | resolving | mapping | publishing =>
      exact hshelters.elim

/-- Every other call goes on to the loop and stays there. -/
theorem HookShared.Dooms.step {s s' : HookShared} {call : HookCall} {pc : InitPc}
    {env : InitEnv} {onward : Option InitPc} (hbusy : s.hooksInitializing = true)
    (hnotDone : s.hooksInitialized = false) (hdooms : s.Dooms call pc)
    (hstep : HookFrame.step env ⟨.hook call, pc⟩ s = some (s', onward)) :
    ∃ pc', onward = some pc' ∧ s'.Dooms call pc' := by
  cases pc with
  | testing =>
      obtain ⟨rfl, htest⟩ := Prod.mk.inj (Option.some.inj hstep)
      rcases s.testReal_cases call with ⟨hreal, -⟩ | ⟨hboots, -⟩ | ⟨-, hgoes⟩
      · exact absurd (Or.inl hreal) hdooms
      · exact absurd (Or.inr hboots) hdooms
      · exact ⟨.loading, htest.symm.trans hgoes, trivial⟩
  | loading =>
      obtain ⟨rfl, hpc⟩ := Prod.mk.inj (Option.some.inj hstep)
      rw [hnotDone] at hpc
      exact ⟨.exchanging, hpc.symm, trivial⟩
  | exchanging =>
      obtain ⟨rfl, hpc⟩ := Prod.mk.inj (Option.some.inj hstep)
      rw [hbusy] at hpc
      exact ⟨.waiting, hpc.symm, trivial⟩
  | waiting =>
      obtain ⟨rfl, hpc⟩ := Prod.mk.inj (Option.some.inj hstep)
      rw [hnotDone] at hpc
      exact ⟨.waiting, hpc.symm, trivial⟩
  | real =>
      obtain ⟨call', -, -, hentry, hreal, -⟩ := HookFrame.step_changes hstep
      obtain rfl := HookEntry.hook.inj hentry
      rw [show s.real call.realName = false from hdooms] at hreal
      contradiction
  | testingDlsym | bumping | entering | resolving | mapping | publishing => exact hdooms.elim

/-- A call inside a lookup is where it returns from if it is answered. -/
theorem HookWorld.Sheltered.enter_iff (hsheltered : w.Sheltered) (t : Tid)
    (entry : HookEntry) :
    HookWorld.Sheltered
        ⟨w.shared, Function.update w.frames t (⟨entry, entry.start⟩ :: w.frames t)⟩ ↔
      w.NestedAnswered (.move ⟨t, .enter entry⟩) := by
  constructor
  · intro hnext t' call hcall hnested
    cases hcall
    exact hnext t call .testing (w.frames t) (Function.update_self ..) hnested
  · intro hanswered t' call pc below hframes hbelow
    change Function.update w.frames t _ t' = _ at hframes
    by_cases ht : t' = t
    · rw [ht, Function.update_self] at hframes
      obtain ⟨hfirst, rfl⟩ := List.cons.inj hframes
      obtain ⟨rfl, rfl⟩ := HookFrame.mk.inj hfirst
      exact hanswered t call rfl hbelow
    · rw [Function.update_of_ne ht] at hframes
      exact hsheltered t' call pc below hframes hbelow

theorem HookWorld.NestInv.sheltered_advance (hinv : w.NestInv) (hsheltered : w.Sheltered)
    {t : Tid} {env : InitEnv} {frame : HookFrame} {below : List HookFrame}
    {shared : HookShared} {onward : Option InitPc} (hframes : w.frames t = frame :: below)
    (hframe : frame.step env w.shared = some (shared, onward)) :
    HookWorld.Sheltered
      ⟨shared, Function.update w.frames t (settle frame.entry below onward)⟩ := by
  intro t' call pc others hnested hothers
  change Function.update w.frames t _ t' = _ at hnested
  by_cases ht : t' = t
  · rw [ht, Function.update_self] at hnested
    cases onward with
    | none =>
        -- A call that has returned leaves one frame, so that nothing is nested.
        have hnesting := hinv.nesting t
        rw [hframes, show below = _ from hnested] at hnesting
        cases hnesting with
        | nested => exact absurd rfl hothers
    | some pc' =>
        obtain ⟨hfirst, rfl⟩ := List.cons.inj hnested
        obtain ⟨hentry, rfl⟩ := HookFrame.mk.inj hfirst
        obtain ⟨-, -, outer, houter, -, name, rest, hpc⟩ := hinv.nested hframes hothers
        have hdlsym := hinv.dlsym t outer houter _ hpc
        rcases frame with ⟨entry, before⟩
        obtain rfl : entry = .hook call := hentry
        exact (hsheltered t call before below hframes hothers).step hdlsym hframe
  · rw [Function.update_of_ne ht] at hnested
    obtain ⟨hreal, hbase⟩ := hinv.frame_other hframes hframe hnested hothers ht
    exact (HookShared.shelters_congr hreal hbase call pc).mpr
      (hsheltered t' call pc others hnested hothers)

theorem HookWorld.Sheltered.throws (hsheltered : w.Sheltered) (t : Tid) :
    HookWorld.Sheltered ⟨w.shared, Function.update w.frames t []⟩ := by
  intro t' call pc others hnested hothers
  change Function.update w.frames t [] t' = _ at hnested
  by_cases ht : t' = t
  · rw [ht, Function.update_self] at hnested
    cases hnested
  · rw [Function.update_of_ne ht] at hnested
    exact hsheltered t' call pc others hnested hothers

/-- Whether a step keeps the calls inside lookups where they return from is decided when
they are made. -/
theorem HookWorld.NestInv.sheltered_iff (hinv : w.NestInv) (hsheltered : w.Sheltered)
    {label : OnceMove Tid} (hstep : w.anyStep label = some next) :
    next.Sheltered ↔ w.NestedAnswered label := by
  rcases HookWorld.anyStep_cases hstep with
    ⟨t, config, rfl, rfl⟩ | ⟨t, entry, rfl, -, -, rfl⟩ |
      ⟨t, env, frame, below, shared, onward, rfl, hframes, hframe, rfl⟩ |
      ⟨t, entry, below, rfl, hframes, rfl⟩
  · refine iff_of_true hsheltered ?_
    intro t' call hcall
    cases hcall
  · exact hsheltered.enter_iff t entry
  · refine iff_of_true (hinv.sheltered_advance hsheltered hframes hframe) ?_
    intro t' call hcall
    cases hcall
  · obtain rfl := hinv.below_eq_nil hframes
    refine iff_of_true (hsheltered.throws t) ?_
    intro t' call hcall
    cases hcall

/-- The call of a thread returns, or comes to the real function that has been looked up,
within finitely many steps that the thread takes alone. -/
def HookWorld.Returns (w : HookWorld Tid) (t : Tid) (call : HookCall)
    (below : List HookFrame) (env : InitEnv) : Prop :=
  ∃ n final, run HookWorld.anyStep w (List.replicate n (.move ⟨t, .advance env⟩)) = some final ∧
    (final.frames t = below ∨
      final.frames t = ⟨.hook call, .real⟩ :: below ∧ final.shared.real call.realName = true)

/-- Every call inside a lookup returns, and the thread that initialises is not in the
loop. -/
structure HookWorld.NestedReturn (w : HookWorld Tid) : Prop where
  returns : ∀ t call pc below, w.frames t = ⟨.hook call, pc⟩ :: below → below ≠ [] →
    ∀ env, w.Returns t call below env
  neverWaits : ∀ t, ∀ outer ∈ w.frames t, outer.pc.Initialising → ∀ frame ∈ w.frames t,
    frame.pc ≠ .waiting

section

variable {t : Tid} {call : HookCall} {pc : InitPc} {below : List HookFrame} {env : InitEnv}

theorem HookWorld.anyStep_advance {frame : HookFrame} {shared : HookShared}
    {onward : Option InitPc} (hframes : w.frames t = frame :: below)
    (hstep : frame.step env w.shared = some (shared, onward)) :
    w.anyStep (.move ⟨t, .advance env⟩) = some
      ⟨shared, Function.update w.frames t (settle frame.entry below onward)⟩ := by
  simp [anyStep, onceStep, HookWorld.step, hframes, hstep]

theorem HookWorld.Returns.of_step (hstep : w.anyStep (.move ⟨t, .advance env⟩) = some next)
    (hreturns : next.Returns t call below env) : w.Returns t call below env := by
  obtain ⟨n, final, hrun, hends⟩ := hreturns
  exact ⟨n + 1, final, run_cons_eq_some.mpr ⟨next, hstep, hrun⟩, hends⟩

/-- A call that the bootstrap branch or an earlier lookup answers returns. -/
theorem HookShared.Shelters.returns (hframes : w.frames t = ⟨.hook call, pc⟩ :: below)
    (hdlsym : w.shared.inDlsym = true) (hshelters : w.shared.Shelters call pc) :
    w.Returns t call below env := by
  have hbump : ∀ {v : HookWorld Tid}, v.frames t = ⟨.hook call, .bumping⟩ :: below →
      v.Returns t call below env := by
    intro v hv
    have hstep : v.anyStep (.move ⟨t, .advance env⟩) = some ⟨v.shared.bump call,
      Function.update v.frames t below⟩ := HookWorld.anyStep_advance hv rfl
    exact .of_step hstep ⟨0, _, rfl, Or.inl (Function.update_self ..)⟩
  have hdlsymTest : ∀ {v : HookWorld Tid}, v.frames t = ⟨.hook call, .testingDlsym⟩ :: below →
      v.shared.inDlsym = true → v.Returns t call below env := by
    intro v hv hinside
    have hgoes : HookFrame.step env ⟨.hook call, .testingDlsym⟩ v.shared =
        some (v.shared, some .bumping) := by
      simp [HookFrame.step, hinside]
    exact .of_step (HookWorld.anyStep_advance hv hgoes) (hbump (Function.update_self ..))
  cases pc with
  | real => exact ⟨0, w, rfl, Or.inr ⟨hframes, hshelters⟩⟩
  | bumping => exact hbump hframes
  | testingDlsym => exact hdlsymTest hframes hdlsym
  | testing =>
      have hgoes : HookFrame.step env ⟨.hook call, .testing⟩ w.shared =
        some (w.shared, w.shared.testReal call) := rfl
      refine .of_step (HookWorld.anyStep_advance hframes hgoes) ?_
      rcases w.shared.testReal_cases call with
        ⟨hreal, htest⟩ | ⟨-, htest | htest⟩ | ⟨hnot, -⟩
      · rw [htest]
        exact ⟨0, _, rfl, Or.inr ⟨Function.update_self .., hreal⟩⟩
      · rw [htest]
        exact hdlsymTest (Function.update_self ..) hdlsym
      · rw [htest]
        exact ⟨0, _, rfl, Or.inl (Function.update_self ..)⟩
      · exact absurd hshelters hnot
  | loading | exchanging | waiting | entering | resolving | mapping | publishing =>
      exact hshelters.elim

/-- A call inside a lookup that nothing answers: it is there, and it does not return. -/
structure HookWorld.Doomed (w : HookWorld Tid) (t : Tid) (call : HookCall)
    (below : List HookFrame) : Prop where
  inv : w.NestInv
  nested : below ≠ []
  stuck : ∃ pc, w.frames t = ⟨.hook call, pc⟩ :: below ∧ w.shared.Dooms call pc

/-- Whatever any thread does, it stays where it is: only its own thread could set
`hooks_initialized`. -/
theorem HookWorld.Doomed.step (hdoomed : w.Doomed t call below) {label : OnceMove Tid}
    (hstep : w.anyStep label = some next) : next.Doomed t call below := by
  obtain ⟨hinv, hbelow, pc, hframes, hdooms⟩ := hdoomed
  refine ⟨HookWorld.anyStep_nestInv hinv hstep, hbelow, ?_⟩
  obtain ⟨houtside, -, outer, houter, hpc, -⟩ := hinv.nested hframes hbelow
  rcases HookWorld.anyStep_cases hstep with
    ⟨t', config, -, rfl⟩ | ⟨t', entry, -, hcan, -, rfl⟩ |
      ⟨t', env, frame, others, shared, onward, -, hother, hframe, rfl⟩ |
      ⟨t', entry, others, -, hother, rfl⟩
  · exact ⟨pc, hframes, hdooms⟩
  · have ht : t ≠ t' := by
      rintro rfl
      rw [hframes] at hcan
      cases pc with
      | resolving => exact houtside trivial
      | testing | testingDlsym | bumping | loading | exchanging | waiting | entering
        | mapping | publishing | real => cases hcan
    exact ⟨pc, (Function.update_of_ne ht ..).trans hframes, hdooms⟩
  · by_cases ht : t = t'
    · subst ht
      rw [hframes] at hother
      obtain ⟨rfl, rfl⟩ := List.cons.inj hother
      obtain ⟨hbusy, hnotDone⟩ := hinv.flags houter hpc
      obtain ⟨pc', rfl, hdooms'⟩ := hdooms.step hbusy hnotDone hframe
      exact ⟨pc', Function.update_self .., hdooms'⟩
    · obtain ⟨hreal, hbase⟩ := hinv.frame_other hother hframe hframes hbelow ht
      exact ⟨pc, (Function.update_of_ne ht ..).trans hframes,
        (HookShared.dooms_congr hreal hbase call pc).mpr hdooms⟩
  · have ht : t ≠ t' := by
      rintro rfl
      rw [hinv.below_eq_nil hother, hframes] at hother
      exact hbelow (List.cons.inj hother).2
    exact ⟨pc, (Function.update_of_ne ht ..).trans hframes, hdooms⟩

theorem HookWorld.Doomed.not_returns (hdoomed : w.Doomed t call below) :
    ¬ w.Returns t call below env := by
  rintro ⟨n, final, hrun, hends⟩
  have hfinal : final.Doomed t call below :=
    run_invariant (fun _ _ _ hinv hstep => HookWorld.Doomed.step hinv hstep) hdoomed hrun
  obtain ⟨pc, hframes, hdooms⟩ := hfinal.stuck
  rcases hends with hreturned | ⟨hreal, hset⟩
  · rw [hframes] at hreturned
    exact absurd hreturned (List.cons_ne_self _ _)
  · rw [hframes] at hreal
    obtain ⟨-, rfl⟩ := HookFrame.mk.inj (List.cons.inj hreal).1
    rw [show final.shared.real call.realName = false from hdooms] at hset
    contradiction

theorem HookWorld.NestInv.nestedReturn_iff (hinv : w.NestInv) :
    w.NestedReturn ↔ w.Sheltered := by
  constructor
  · intro hreturn t call pc below hframes hbelow
    obtain ⟨houtside, -⟩ := hinv.nested hframes hbelow
    rcases HookShared.shelters_or_dooms houtside with hshelters | hdooms
    · exact hshelters
    · have hdoomed : w.Doomed t call below := ⟨hinv, hbelow, pc, hframes, hdooms⟩
      have hanswer : InitEnv := { found := true, hook := { answer := .refuse, room := true } }
      exact absurd (hreturn.returns t call pc below hframes hbelow hanswer) hdoomed.not_returns
  · intro hsheltered
    constructor
    · intro t call pc below hframes hbelow env
      obtain ⟨-, -, outer, houter, -, name, rest, hpc⟩ := hinv.nested hframes hbelow
      exact (hsheltered t call pc below hframes hbelow).returns hframes
        (hinv.dlsym t outer houter _ hpc)
    · intro t outer houter hinside frame hframe hwaiting
      have hnesting := hinv.nesting t
      have hcalls := hsheltered t
      revert houter hframe hnesting hcalls
      generalize w.frames t = frames
      intro houter hframe hnesting hcalls
      cases hnesting with
      | idle => exact absurd hframe List.not_mem_nil
      | single only =>
          obtain rfl := List.mem_singleton.mp houter
          obtain rfl := List.mem_singleton.mp hframe
          rw [hwaiting] at hinside
          exact hinside
      | nested call pc entry name rest houtside =>
          rcases List.mem_cons.mp hframe with rfl | hbelow
          · obtain rfl : pc = .waiting := hwaiting
            exact hcalls call .waiting _ rfl (by simp)
          · obtain rfl := List.mem_singleton.mp hbelow
            cases hwaiting

end

/-- Under any schedule of any number of threads, whether or not there is memory for the
map: all calls that the lookups make return, and the initialising thread never comes to
the loop, if and only if each of these calls is answered by the bootstrap branch or by a
function that an earlier lookup has found. -/
theorem nested_calls_return_iff (buf : BootstrapBuf) (labels : List (OnceMove Tid))
    (final : HookWorld Tid)
    (hrun : run HookWorld.anyStep (HookWorld.initial Tid buf) labels = some final) :
    Throughout HookWorld.anyStep HookWorld.NestedReturn (HookWorld.initial Tid buf) labels ↔
      Along HookWorld.anyStep HookWorld.NestedAnswered (HookWorld.initial Tid buf)
        labels := by
  have hinv : (HookWorld.initial Tid buf).NestInv := HookWorld.initial_nestInv buf
  have hsheltered : (HookWorld.initial Tid buf).Sheltered := nofun
  apply throughout_iff_along (fun w => w.NestInv ∧ w.Sheltered) _ _ ⟨hinv, hsheltered⟩
    (hinv.nestedReturn_iff.mpr hsheltered) along_true hrun
  · rintro w label next ⟨hinv, hsheltered⟩ - hanswered hstep
    exact ⟨HookWorld.anyStep_nestInv hinv hstep,
      (hinv.sheltered_iff hsheltered hstep).mpr hanswered⟩
  · rintro w label next ⟨hinv, hsheltered⟩ - hstep
    have hnext := HookWorld.anyStep_nestInv hinv hstep
    exact hnext.nestedReturn_iff.trans (hinv.sheltered_iff hsheltered hstep)

namespace NestedWitness

open BootstrapWitness

/-- Inside the first lookup `dlsym` calls `calloc`, and `free` with a null pointer. -/
def freesNull : List (OnceMove Unit) :=
  [call (.malloc 16)] ++ List.replicate 5 (advance 0x70000) ++
    [call (.calloc 1 32)] ++ List.replicate 3 (advance 0x70000) ++
    [call (.free nullptr)] ++ List.replicate 3 (advance 0x70000)

theorem freesNull_return_iff :
    Throughout HookWorld.anyStep HookWorld.NestedReturn (HookWorld.initial Unit loaded)
        freesNull ↔
      Along HookWorld.anyStep HookWorld.NestedAnswered (HookWorld.initial Unit loaded)
        freesNull :=
  nested_calls_return_iff loaded freesNull _ rfl

/-- The `free` of a null pointer waits for the initialisation that it is part of. -/
theorem freesNull_waits :
    ¬ ∀ (buf : BootstrapBuf) (labels : List (OnceMove Unit)) (final : HookWorld Unit),
      run HookWorld.anyStep (HookWorld.initial Unit buf) labels = some final →
        Throughout HookWorld.anyStep HookWorld.NestedReturn (HookWorld.initial Unit buf)
          labels := by
  intro hreturn
  have hfinal := hreturn loaded freesNull _ rfl _ (List.prefix_refl _) _ rfl
  exact hfinal.neverWaits () ⟨.hook (.malloc 16), .resolving lookups⟩
    (List.mem_cons_of_mem _ List.mem_cons_self) trivial ⟨.hook (.free nullptr), .waiting⟩
    List.mem_cons_self rfl

end NestedWitness

end Domovoy
