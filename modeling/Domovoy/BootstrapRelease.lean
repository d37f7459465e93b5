/-
Where the memory that `dlsym` was given out of the bootstrap buffer goes when its
holder gives it up.
-/
import Domovoy.HookInit

namespace Domovoy

open WordAlign Transition

/-- The call gives up a pointer inside the bootstrap buffer. -/
def HookEntry.Returns (entry : HookEntry) (buf : BootstrapBuf) : Prop :=
  ∃ ptr, entry.released = some ptr ∧ buf.Holds ptr

/-- In `InitHooks`, or before the store that follows it. -/
def InitPc.Initialising : InitPc → Prop
  | .entering | .resolving _ | .mapping | .publishing => True
  | _ => False

variable {Tid : Type}

/-- No thread stands before `real_free` or `real_realloc` with a pointer inside the
bootstrap buffer. -/
def HookWorld.BootstrapKept (w : HookWorld Tid) : Prop :=
  ∀ t, ∀ frame ∈ w.frames t, frame.pc = .real → ¬ frame.entry.Returns w.shared.buf

/-- Whatever a call that gives up such a pointer reads of the initialisation says that
it is not over: its own real function is null, and `hooks_initialized` is not set. -/
def HookWorld.ReturnsUnready (w : HookWorld Tid) (label : OnceMove Tid) : Prop :=
  ∀ t env call pc below, label = .move ⟨t, .advance env⟩ →
    w.frames t = ⟨.hook call, pc⟩ :: below →
      (HookEntry.hook call).Returns w.shared.buf →
        (pc = .testing → w.shared.real call.realName = false) ∧
          (pc = .loading ∨ pc = .waiting → w.shared.hooksInitialized = false)

/-- Nothing has come of any hook yet. -/
structure HookShared.Untouched (s : HookShared) : Prop where
  real : ∀ name, s.real name = false
  inDlsym : s.inDlsym = false
  owned : s.owned = []

/-- A call before the exchange: it gives nothing up, and it is neither in `InitHooks`
nor in the bootstrap branch. -/
structure HookFrame.Early (frame : HookFrame) : Prop where
  released : frame.entry.released = none
  notInitialising : ¬ frame.pc.Initialising
  notBumping : frame.pc ≠ .bumping

/-- Until the exchange nothing is handed out, so that no thread is in `InitHooks` on
behalf of a pointer. -/
structure HookWorld.InitInv (w : HookWorld Tid) : Prop where
  untouched : w.shared.hooksInitializing = false → w.shared.Untouched
  early : w.shared.hooksInitializing = false → ∀ t, ∀ frame ∈ w.frames t, frame.Early
  initialising : ∀ t, ∀ frame ∈ w.frames t, frame.pc.Initialising →
    frame.entry.released = none

theorem HookShared.bump_base (s : HookShared) (call : HookCall) :
    (s.bump call).buf.base = s.buf.base := by
  cases call with
  | malloc size => exact s.buf.malloc_base size
  | calloc nmemb size => exact s.buf.calloc_base nmemb size
  | free | realloc | memalign | posixMemalign => rfl

/-- The static buffer stays where it is. -/
theorem HookFrame.Changes.base {env : InitEnv} {frame : HookFrame} {s s' : HookShared}
    (hchanges : frame.Changes env s s') : s'.buf.base = s.buf.base := by
  rcases frame with ⟨entry, pc⟩
  cases pc with
  | bumping =>
      obtain ⟨call, -, rfl⟩ := hchanges
      exact s.bump_base call
  | real =>
      obtain ⟨call, ptr, tracker, -, -, -, -, rfl⟩ := hchanges
      rfl
  | resolving rest =>
      cases rest with
      | nil | cons =>
          obtain rfl := hchanges
          rfl
  | testing | testingDlsym | loading | exchanging | waiting | entering | mapping
    | publishing =>
      obtain rfl := hchanges
      rfl

/-- `hooks_initializing` is never taken back. -/
theorem HookFrame.Changes.started {env : InitEnv} {frame : HookFrame}
    {s s' : HookShared} (hchanges : frame.Changes env s s')
    (hstarted : s.hooksInitializing = true) : s'.hooksInitializing = true := by
  rcases frame with ⟨entry, pc⟩
  cases pc with
  | exchanging =>
      obtain rfl := hchanges
      rfl
  | bumping =>
      obtain ⟨call, -, rfl⟩ := hchanges
      cases call with
      | malloc | calloc | free | realloc | memalign | posixMemalign => exact hstarted
  | real =>
      obtain ⟨call, ptr, tracker, -, -, -, -, rfl⟩ := hchanges
      exact hstarted
  | resolving rest =>
      cases rest with
      | nil | cons =>
          obtain rfl := hchanges
          exact hstarted
  | testing | testingDlsym | loading | waiting | entering | mapping | publishing =>
      obtain rfl := hchanges
      exact hstarted

/-- Before the exchange a call either makes the exchange or changes nothing. -/
theorem HookFrame.Changes.early {env : InitEnv} {frame : HookFrame} {s s' : HookShared}
    (hchanges : frame.Changes env s s') (huntouched : s.Untouched)
    (hearly : frame.Early) : s'.hooksInitializing = true ∨ s' = s := by
  rcases frame with ⟨entry, pc⟩
  cases pc with
  | testing | testingDlsym | loading | waiting => exact Or.inr hchanges
  | exchanging =>
      obtain rfl := hchanges
      exact Or.inl rfl
  | real =>
      obtain ⟨call, ptr, tracker, -, hreal, -⟩ := hchanges
      rw [huntouched.real] at hreal
      contradiction
  | bumping => exact absurd rfl hearly.notBumping
  | entering | resolving | mapping | publishing =>
      exact absurd trivial hearly.notInitialising

/-- Only the call that makes the exchange enters `InitHooks`. -/
theorem HookFrame.LeadsTo.initialising {s : HookShared} {frame : HookFrame} {pc : InitPc}
    (hleads : frame.LeadsTo s pc) (hpc : pc.Initialising) :
    frame.pc.Initialising ∨
      frame.pc = .exchanging ∧ s.hooksInitializing = false := by
  cases pc with
  | entering => exact Or.inr hleads
  | resolving rest =>
      rcases hleads with ⟨hbefore, -⟩ | ⟨name, hbefore⟩
      · exact Or.inl (by rw [hbefore]; trivial)
      · exact Or.inl (by rw [hbefore]; trivial)
  | mapping | publishing => exact Or.inl (by rw [hleads]; trivial)
  | testing | testingDlsym | bumping | loading | exchanging | waiting | real =>
      exact hpc.elim

theorem HookFrame.LeadsTo.early {s : HookShared} {frame : HookFrame} {pc : InitPc}
    (huntouched : s.Untouched) (hearly : frame.Early) (hleads : frame.LeadsTo s pc)
    (hexchange : frame.pc ≠ .exchanging) : HookFrame.Early ⟨frame.entry, pc⟩ := by
  refine ⟨hearly.released, ?_, ?_⟩
  · intro hpc
    rcases hleads.initialising hpc with hbefore | ⟨hbefore, -⟩
    · exact hearly.notInitialising hbefore
    · exact hexchange hbefore
  · rintro rfl
    have hdlsym := hleads.2
    rw [huntouched.inDlsym] at hdlsym
    contradiction

theorem HookWorld.initial_initInv (buf : BootstrapBuf) :
    (HookWorld.initial Tid buf).InitInv where
  untouched := fun _ => ⟨fun _ => rfl, rfl, rfl⟩
  early := nofun
  initialising := nofun

theorem HookWorld.InitInv.configure {w : HookWorld Tid} (hinv : w.InitInv)
    (config : DomovoyConfig) :
    HookWorld.InitInv { w with shared.tracker.config := config } where
  untouched := fun hidle => ⟨(hinv.untouched hidle).real, (hinv.untouched hidle).inDlsym,
    (hinv.untouched hidle).owned⟩
  early := hinv.early
  initialising := hinv.initialising

variable [DecidableEq Tid]

/-- Nothing can be given up before something has been handed out. -/
theorem HookWorld.InitInv.enter {w : HookWorld Tid} (hinv : w.InitInv) (t : Tid)
    {entry : HookEntry} {shared : HookShared}
    (hclaim : w.shared.claim entry = some shared) :
    HookWorld.InitInv
      ⟨shared, Function.update w.frames t (⟨entry, entry.start⟩ :: w.frames t)⟩ := by
  have hstart : ¬ entry.start.Initialising ∧ entry.start ≠ .bumping := by
    cases entry with
    | hook | init => exact ⟨id, nofun⟩
  have hsame : shared.hooksInitializing = w.shared.hooksInitializing := by
    rcases HookShared.claim_cases hclaim with ⟨-, rfl⟩ | ⟨ptr, -, -, rfl⟩ <;> rfl
  have hnothing : w.shared.hooksInitializing = false →
      entry.released = none ∧ shared = w.shared := by
    intro hidle
    rcases HookShared.claim_cases hclaim with hnone | ⟨ptr, -, howned, -⟩
    · exact hnone
    · rw [(hinv.untouched hidle).owned] at howned
      exact absurd howned List.not_mem_nil
  refine ⟨?_, ?_, ?_⟩
  · intro hidle
    rw [hsame] at hidle
    rw [(hnothing hidle).2]
    exact hinv.untouched hidle
  · intro hidle t' frame hframe
    rw [hsame] at hidle
    rcases mem_frames_enter hframe with rfl | hframe
    · exact ⟨(hnothing hidle).1, hstart.1, hstart.2⟩
    · exact hinv.early hidle t' frame hframe
  · intro t' frame hframe hpc
    rcases mem_frames_enter hframe with rfl | hframe
    · exact absurd hpc hstart.1
    · exact hinv.initialising t' frame hframe hpc

theorem HookWorld.InitInv.advance {w : HookWorld Tid} (hinv : w.InitInv) {t : Tid}
    {env : InitEnv} {frame : HookFrame} {below : List HookFrame} {shared : HookShared}
    {onward : Option InitPc} (hframes : w.frames t = frame :: below)
    (hstep : frame.step env w.shared = some (shared, onward)) :
    HookWorld.InitInv
      ⟨shared, Function.update w.frames t (settle frame.entry below onward)⟩ := by
  have hchanges := HookFrame.step_changes hstep
  have htop : frame ∈ w.frames t := by
    rw [hframes]
    exact List.mem_cons_self
  -- The exchange is still to come only if this step changed nothing.
  have hunchanged : shared.hooksInitializing = false →
      w.shared.hooksInitializing = false ∧ shared = w.shared := by
    intro hidle
    have hidle' : w.shared.hooksInitializing = false := by
      by_contra hstarted
      rw [hchanges.started (Bool.eq_true_of_not_eq_false hstarted)] at hidle
      contradiction
    refine ⟨hidle', ?_⟩
    rcases hchanges.early (hinv.untouched hidle') (hinv.early hidle' t frame htop)
      with hstarted | hsame
    · rw [hstarted] at hidle
      contradiction
    · exact hsame
  refine ⟨?_, ?_, ?_⟩
  · intro hidle
    obtain ⟨hidle', hsame⟩ := hunchanged hidle
    change shared.Untouched
    rw [hsame]
    exact hinv.untouched hidle'
  · intro hidle t' frame' hframe'
    obtain ⟨hidle', hsame⟩ := hunchanged hidle
    rcases mem_frames_advance hframes hframe' with ⟨pc, rfl, rfl⟩ | hframe'
    · refine HookFrame.LeadsTo.early (hinv.untouched hidle')
        (hinv.early hidle' t frame htop) (HookFrame.step_leadsTo hstep) ?_
      intro hexchange
      rw [HookFrame.Changes, hexchange] at hchanges
      obtain rfl := hchanges
      exact Bool.noConfusion hidle
    · exact hinv.early hidle' t' frame' hframe'
  · intro t' frame' hframe' hpc
    rcases mem_frames_advance hframes hframe' with ⟨pc, rfl, rfl⟩ | hframe'
    · rcases (HookFrame.step_leadsTo hstep).initialising hpc with hbefore | ⟨-, hidle⟩
      · exact hinv.initialising t frame htop hbefore
      · exact (hinv.early hidle t frame htop).released
    · exact hinv.initialising t' frame' hframe' hpc

theorem HookWorld.InitInv.throws {w : HookWorld Tid} (hinv : w.InitInv) {t : Tid}
    {frame : HookFrame} {below : List HookFrame} (hframes : w.frames t = frame :: below) :
    HookWorld.InitInv ⟨w.shared, Function.update w.frames t below⟩ where
  untouched := hinv.untouched
  early := fun hidle t' frame' hframe' =>
    hinv.early hidle t' frame' (mem_frames_pop hframes hframe')
  initialising := fun t' frame' hframe' =>
    hinv.initialising t' frame' (mem_frames_pop hframes hframe')

theorem HookWorld.onceStep_initInv {w next : HookWorld Tid} {label : OnceMove Tid}
    (hinv : w.InitInv) (hstep : w.onceStep label = some next) : next.InitInv := by
  cases label with
  | allocateThrows t =>
      obtain ⟨entry, below, hframes, rfl⟩ := HookWorld.throws_cases hstep
      exact hinv.throws hframes
  | move label =>
      rcases HookWorld.step_cases hstep with ⟨config, -, rfl⟩ |
        ⟨entry, shared, -, -, hclaim, rfl⟩ |
        ⟨env, frame, below, shared, onward, -, hframes, hframe, rfl⟩
      · exact hinv.configure config
      · exact hinv.enter label.thread hclaim
      · exact hinv.advance hframes hframe

theorem HookEntry.returns_congr {buf buf' : BootstrapBuf} (hbase : buf'.base = buf.base)
    (entry : HookEntry) : entry.Returns buf' ↔ entry.Returns buf := by
  simp only [Returns, BootstrapBuf.holds_congr hbase]

theorem HookShared.claim_base {s s' : HookShared} {entry : HookEntry}
    (hclaim : s.claim entry = some s') : s'.buf.base = s.buf.base := by
  rcases claim_cases hclaim with ⟨-, rfl⟩ | ⟨ptr, -, -, rfl⟩ <;> rfl

/-- A test that finds the hooks ready sends the call on to its real function. -/
theorem HookFrame.step_ready (env : InitEnv) {call : HookCall} {pc : InitPc}
    {s : HookShared}
    (hready : pc = .testing ∧ s.real call.realName = true ∨
      (pc = .loading ∨ pc = .waiting) ∧ s.hooksInitialized = true) :
    HookFrame.step env ⟨.hook call, pc⟩ s = some (s, some .real) := by
  rcases hready with ⟨rfl, hreal⟩ | ⟨rfl | rfl, hdone⟩
  · simp [step, HookShared.testReal, hreal]
  · simp [step, hdone, HookEntry.afterEnsureInit]
  · simp [step, hdone, HookEntry.afterEnsureInit]

/-- A call that is not in `InitHooks` goes on to its real function when its test finds
the hooks ready, and only then. -/
theorem HookFrame.step_real_iff {env : InitEnv} {call : HookCall} {pc : InitPc}
    {s s' : HookShared} {onward : Option InitPc} (hpc : ¬ pc.Initialising)
    (hstep : HookFrame.step env ⟨.hook call, pc⟩ s = some (s', onward)) :
    onward = some .real ↔
      pc = .testing ∧ s.real call.realName = true ∨
        (pc = .loading ∨ pc = .waiting) ∧ s.hooksInitialized = true := by
  constructor
  · rintro rfl
    obtain ⟨call', hentry, hbefore⟩ := HookFrame.step_leadsTo hstep
    obtain rfl := HookEntry.hook.inj hentry
    rcases hbefore with htesting | hensuring | hpublishing
    · exact Or.inl htesting
    · exact Or.inr hensuring
    · obtain rfl : pc = .publishing := hpublishing
      exact absurd trivial hpc
  · intro hready
    rw [HookFrame.step_ready env hready] at hstep
    exact (Prod.mk.inj (Option.some.inj hstep)).2.symm

/-- One step of a call keeps the law unless it takes the call, and with it a pointer
inside the buffer, to the real function. -/
theorem HookWorld.kept_advance_iff {w : HookWorld Tid} (hkept : w.BootstrapKept) {t : Tid}
    {env : InitEnv} {frame : HookFrame} {below : List HookFrame} {shared : HookShared}
    {onward : Option InitPc} (hframes : w.frames t = frame :: below)
    (hstep : frame.step env w.shared = some (shared, onward)) :
    HookWorld.BootstrapKept
        ⟨shared, Function.update w.frames t (settle frame.entry below onward)⟩ ↔
      (frame.entry.Returns w.shared.buf → onward ≠ some .real) := by
  have hbase := (HookFrame.step_changes hstep).base
  constructor
  · rintro hafter hreturns rfl
    rw [← HookEntry.returns_congr hbase] at hreturns
    refine hafter t ⟨frame.entry, .real⟩ ?_ rfl hreturns
    change _ ∈ Function.update w.frames t _ t
    rw [Function.update_self]
    exact List.mem_cons_self
  · intro hpasses t' frame' hmem hreal hreturns
    rw [HookEntry.returns_congr hbase] at hreturns
    rcases mem_frames_advance hframes hmem with ⟨pc, rfl, rfl⟩ | hmem
    · obtain rfl : pc = .real := hreal
      exact hpasses hreturns rfl
    · exact hkept t' frame' hmem hreal hreturns

omit [DecidableEq Tid] in
/-- A step takes no pointer inside the buffer to the real function when the test of the
call finds the hooks not ready, and only then. -/
theorem HookWorld.InitInv.passes_iff_returnsUnready {w : HookWorld Tid} (hinv : w.InitInv)
    {t : Tid} {env : InitEnv} {frame : HookFrame} {below : List HookFrame}
    {shared : HookShared} {onward : Option InitPc} (hframes : w.frames t = frame :: below)
    (hstep : frame.step env w.shared = some (shared, onward)) :
    (frame.entry.Returns w.shared.buf → onward ≠ some .real) ↔
      w.ReturnsUnready (.move ⟨t, .advance env⟩) := by
  have htop : frame ∈ w.frames t := by
    rw [hframes]
    exact List.mem_cons_self
  -- A thread is in `InitHooks` on behalf of no pointer.
  have houtside : frame.entry.Returns w.shared.buf → ¬ frame.pc.Initialising := by
    rintro ⟨ptr, hreleased, -⟩ hpc
    rw [hinv.initialising t frame htop hpc] at hreleased
    contradiction
  constructor
  · rintro hpasses t' env' call pc below' hmove hframes' hreturns
    obtain ⟨rfl, hadvance⟩ := InitStep.mk.inj (OnceMove.move.inj hmove)
    rw [hframes] at hframes'
    obtain ⟨rfl, rfl⟩ := List.cons.inj hframes'
    have hnotReady := hpasses hreturns
    rw [ne_eq, HookFrame.step_real_iff (houtside hreturns) hstep, not_or] at hnotReady
    constructor
    · intro hpc
      exact Bool.eq_false_of_not_eq_true fun hreal => hnotReady.1 ⟨hpc, hreal⟩
    · intro hpc
      exact Bool.eq_false_of_not_eq_true fun hdone => hnotReady.2 ⟨hpc, hdone⟩
  · intro hunready hreturns
    rcases frame with ⟨entry | _, pc⟩
    · obtain ⟨htesting, hensuring⟩ := hunready t env entry pc below rfl hframes hreturns
      rw [ne_eq, HookFrame.step_real_iff (houtside hreturns) hstep]
      rintro (⟨hpc, hready⟩ | ⟨hpc, hdone⟩)
      · rw [htesting hpc] at hready
        contradiction
      · rw [hensuring hpc] at hdone
        contradiction
    · obtain ⟨ptr, hreleased, -⟩ := hreturns
      exact absurd hreleased nofun

/-- One step keeps the law if and only if it is not the one on which a call that gives
up a pointer inside the buffer finds the hooks ready. -/
theorem HookWorld.onceStep_bootstrapKept_iff {w next : HookWorld Tid}
    {label : OnceMove Tid} (hinv : w.InitInv) (hkept : w.BootstrapKept)
    (hstep : w.onceStep label = some next) : next.BootstrapKept ↔ w.ReturnsUnready label := by
  cases label with
  | allocateThrows t =>
      obtain ⟨entry, below, hframes, rfl⟩ := HookWorld.throws_cases hstep
      refine iff_of_true ?_ ?_
      · intro t' frame hmem
        exact hkept t' frame (mem_frames_pop hframes hmem)
      · intro t' env call pc below' hmove
        contradiction
  | move label =>
      rcases label with ⟨t, move⟩
      rcases HookWorld.step_cases hstep with ⟨config, rfl, rfl⟩ |
        ⟨entry, shared, rfl, -, hclaim, rfl⟩ |
        ⟨env, frame, below, shared, onward, rfl, hframes, hframe, rfl⟩
      · apply iff_of_true hkept
        intro t' env call pc below hmove
        cases hmove
      · refine iff_of_true ?_ ?_
        · intro t' frame hmem hreal
          rw [HookEntry.returns_congr (HookShared.claim_base hclaim)]
          rcases mem_frames_enter hmem with rfl | hmem
          · cases entry with
            | hook | init => contradiction
          · exact hkept t' frame hmem hreal
        · intro t' env call pc below hmove
          cases hmove
      · have hframes : w.frames t = frame :: below := hframes
        rw [kept_advance_iff hkept hframes hframe]
        exact hinv.passes_iff_returnsUnready hframes hframe

/-- Whatever is called inside the lookups and by whatever threads, and whether or not
there is memory for the map: no pointer inside the bootstrap buffer reaches `real_free`
or `real_realloc` if and only if every `free` and `realloc` of one finds its own real
function null when it tests it, and `hooks_initialized` not set when it reads that in
`EnsureInit`. -/
theorem bootstrap_kept_iff (buf : BootstrapBuf) (labels : List (OnceMove Tid))
    (final : HookWorld Tid)
    (hrun : run HookWorld.onceStep (HookWorld.initial Tid buf) labels = some final) :
    Throughout HookWorld.onceStep HookWorld.BootstrapKept (HookWorld.initial Tid buf)
        labels ↔
      Along HookWorld.onceStep HookWorld.ReturnsUnready (HookWorld.initial Tid buf)
        labels := by
  have hkept : (HookWorld.initial Tid buf).BootstrapKept := nofun
  have hbegin : (HookWorld.initial Tid buf).InitInv ∧
      (HookWorld.initial Tid buf).BootstrapKept := ⟨HookWorld.initial_initInv buf, hkept⟩
  apply throughout_iff_along (fun w => w.InitInv ∧ w.BootstrapKept) _ _ hbegin hkept
    along_true hrun
  · rintro w label next ⟨hinv, hkept⟩ - hunready hstep
    exact ⟨HookWorld.onceStep_initInv hinv hstep,
      (HookWorld.onceStep_bootstrapKept_iff hinv hkept hstep).mpr hunready⟩
  · rintro w label next ⟨hinv, hkept⟩ - hstep
    exact HookWorld.onceStep_bootstrapKept_iff hinv hkept hstep

namespace BootstrapWitness

/-- A buffer as the loader leaves it. -/
def loaded : BootstrapBuf where
  base := 0x10000
  idx := 0
  bytes := fun _ => 0
  base_ne_nullptr := by decide
  end_fits := by decide

def call (call : HookCall) : OnceMove Unit :=
  .move ⟨(), .enter (.hook call)⟩

/-- A step for which the surroundings answer that the function is found and that the
allocator hands out the given block. -/
def advance (address : Word) : OnceMove Unit :=
  .move ⟨(), .advance { found := true, hook := { answer := .block address, room := true } }⟩

/-- The first `malloc` of a program: inside the first lookup `dlsym` calls `calloc` and
frees the result at once. -/
def freedInside : List (OnceMove Unit) :=
  [call (.malloc 16)] ++ List.replicate 5 (advance 0x70000) ++
    [call (.calloc 1 32)] ++ List.replicate 3 (advance 0x70000) ++
    [call (.free 0x10000)] ++ List.replicate 11 (advance 0x70000)

theorem freedInside_kept_iff :
    Throughout HookWorld.onceStep HookWorld.BootstrapKept (HookWorld.initial Unit loaded)
        freedInside ↔
      Along HookWorld.onceStep HookWorld.ReturnsUnready (HookWorld.initial Unit loaded)
        freedInside :=
  bootstrap_kept_iff loaded freedInside _ rfl

/-- The same, but the result of `calloc` is freed after the initialisation. -/
def freedAfter : List (OnceMove Unit) :=
  [call (.malloc 16)] ++ List.replicate 5 (advance 0x70000) ++
    [call (.calloc 1 32)] ++ List.replicate 13 (advance 0x70000) ++
    [call (.free 0x10000), advance 0x70000]

/-- It reaches `real_free`. -/
theorem freedAfter_not_kept :
    ¬ Throughout HookWorld.onceStep HookWorld.BootstrapKept (HookWorld.initial Unit loaded)
      freedAfter := by
  intro hall
  have hfinal := hall _ (List.prefix_refl _) _ rfl
  refine hfinal () ⟨.hook (.free 0x10000), .real⟩ (List.mem_singleton.mpr rfl) rfl ?_
  exact ⟨0x10000, rfl, by decide⟩

end BootstrapWitness

end Domovoy
