/-
The regions that `malloc` and `calloc` hand out of the bootstrap buffer over whole
sequences of calls, with sizes that may wrap.
-/
import Domovoy.BootstrapRelease
import Domovoy.Startup

namespace Domovoy

open WordAlign Transition

/-- A call while `in_dlsym` is set and its real function is unresolved. -/
inductive BootstrapCall where
  | malloc (size : Word)
  | calloc (nmemb size : Word)
deriving DecidableEq, Repr

def BootstrapCall.hook : BootstrapCall → HookCall
  | .malloc size => .malloc size
  | .calloc nmemb size => .calloc nmemb size

/-- The number of bytes that the caller asks for. -/
def BootstrapCall.requested : BootstrapCall → Nat
  | .malloc size => size.toNat
  | .calloc nmemb size => nmemb.toNat * size.toNat

/-- The number of bytes that the code computes with. -/
def BootstrapCall.total : BootstrapCall → Word
  | .malloc size => size
  | .calloc nmemb size => nmemb * size

def BootstrapBuf.answer (buf : BootstrapBuf) : BootstrapCall → Word × BootstrapBuf
  | .malloc size => buf.malloc size
  | .calloc nmemb size => buf.calloc nmemb size

/-- A result that is not null, with the size that was asked for. -/
structure Handout where
  ptr : Word
  length : Nat
deriving DecidableEq, Repr

/-- The byte addresses from `ptr` on. -/
def Handout.range (handout : Handout) : Set Nat :=
  Set.Ico handout.ptr.toNat (handout.ptr.toNat + handout.length)

/-- The buffer with all that has been handed out of it. -/
structure BootstrapRun where
  buf : BootstrapBuf
  handouts : List Handout

def BootstrapRun.step (r : BootstrapRun) (call : BootstrapCall) : Option BootstrapRun :=
  let (ptr, buf) := r.buf.answer call
  if ptr = nullptr then some { r with buf := buf }
  else some { buf := buf, handouts := r.handouts ++ [⟨ptr, call.requested⟩] }

/-- What a call returns is a region of its own, or null with nothing changed. -/
structure BootstrapRun.WellFormed (r : BootstrapRun) (call : BootstrapCall) : Prop where
  inside : (r.buf.answer call).1 ≠ nullptr →
    r.buf.base.toNat ≤ (r.buf.answer call).1.toNat ∧
      (r.buf.answer call).1.toNat + call.requested ≤
        r.buf.base.toNat + sizeofBootstrapBuf.toNat
  apart : (r.buf.answer call).1 ≠ nullptr → ∀ handout ∈ r.handouts,
    Disjoint (Handout.range ⟨(r.buf.answer call).1, call.requested⟩) handout.range
  aligned : (r.buf.answer call).1 ≠ nullptr →
    maxAlign.toNat ∣ (r.buf.answer call).1.toNat
  zeroed : (r.buf.answer call).1 ≠ nullptr → ∀ nmemb size, call = .calloc nmemb size →
    ∀ address ∈ Handout.range ⟨(r.buf.answer call).1, call.requested⟩,
      (r.buf.answer call).2.bytes (address - r.buf.base.toNat) = 0
  refused : (r.buf.answer call).1 = nullptr → (r.buf.answer call).2.idx = r.buf.idx

/-- When the test of the code passes, the index is aligned and the bytes asked for are
left in the buffer. -/
def BootstrapRun.Fits (r : BootstrapRun) (call : BootstrapCall) : Prop :=
  r.buf.idx + call.total ≤ sizeofBootstrapBuf →
    maxAlign.toNat ∣ r.buf.idx.toNat ∧
      r.buf.idx.toNat + call.requested ≤ sizeofBootstrapBuf.toNat

instance BootstrapRun.decidableFits (r : BootstrapRun) (call : BootstrapCall) :
    Decidable (r.Fits call) :=
  inferInstanceAs (Decidable (_ → _))

/-- Everything handed out lies below the index. -/
structure BootstrapRun.Inv (r : BootstrapRun) : Prop where
  aligned : maxAlign.toNat ∣ r.buf.base.toNat
  idx : r.buf.idx.toNat ≤ sizeofBootstrapBuf.toNat
  below : ∀ handout ∈ r.handouts,
    handout.ptr.toNat + handout.length ≤ r.buf.base.toNat + r.buf.idx.toNat

/-- The bytes that the loop of `calloc` clears. -/
theorem zeroFill_eq_zero {start count offset : Nat} (bytes : Nat → UInt8)
    (hlow : start ≤ offset) (hhigh : offset < start + count) :
    zeroFill start bytes count offset = 0 := by
  induction count with
  | zero => omega
  | succ count ih =>
      by_cases hlast : offset = start + count
      · rw [zeroFill, hlast, Function.update_self]
      · rw [zeroFill, Function.update_of_ne hlast]
        exact ih (by omega)

section

variable {r next : BootstrapRun} {call : BootstrapCall}

theorem BootstrapBuf.answer_refused {buf : BootstrapBuf}
    (htest : ¬ buf.idx + call.total ≤ sizeofBootstrapBuf) :
    buf.answer call = (nullptr, buf) := by
  cases call with
  | malloc size => exact if_neg htest
  | calloc nmemb size => exact if_neg htest

/-- What the bootstrap branch does when its test passes. -/
theorem BootstrapBuf.answer_granted {buf : BootstrapBuf}
    (htest : buf.idx + call.total ≤ sizeofBootstrapBuf) :
    (buf.answer call).1 = buf.base + buf.idx ∧
      (buf.answer call).2.base = buf.base ∧
        (buf.answer call).2.idx = buf.idx + call.total ∧
          ∀ nmemb size, call = .calloc nmemb size →
            (buf.answer call).2.bytes =
              zeroFill buf.idx.toNat buf.bytes (nmemb * size).toNat := by
  cases call with
  | malloc size =>
      have hanswer : buf.answer (.malloc size) =
          (buf.base + buf.idx, { buf with idx := buf.idx + size }) := if_pos htest
      rw [hanswer]
      exact ⟨rfl, rfl, rfl, fun _ _ h => by cases h⟩
  | calloc nmemb size =>
      have hanswer : buf.answer (.calloc nmemb size) = (buf.base + buf.idx, { buf with
          idx := buf.idx + nmemb * size
          bytes := zeroFill buf.idx.toNat buf.bytes (nmemb * size).toNat }) := if_pos htest
      rw [hanswer]
      refine ⟨rfl, rfl, rfl, ?_⟩
      intro nmemb' size' hcall
      obtain ⟨rfl, rfl⟩ := BootstrapCall.calloc.inj hcall
      rfl

/-- The bytes asked for and the bytes computed with agree unless they wrap. -/
theorem BootstrapCall.toNat_total (hfits : call.requested < 2 ^ 64) :
    call.total.toNat = call.requested := by
  cases call with
  | malloc size => rfl
  | calloc nmemb size =>
      rw [total, BitVec.toNat_mul]
      exact Nat.mod_eq_of_lt hfits

/-- The address that the code computes. -/
theorem BootstrapRun.Inv.toNat_ptr (hinv : r.Inv) :
    (r.buf.base + r.buf.idx).toNat = r.buf.base.toNat + r.buf.idx.toNat := by
  have hend := r.buf.end_fits
  have hidx := hinv.idx
  rw [BitVec.toNat_add, Nat.mod_eq_of_lt (by omega)]

theorem BootstrapRun.Inv.ptr_ne_nullptr (hinv : r.Inv) :
    r.buf.base + r.buf.idx ≠ nullptr := by
  intro hnull
  have hptr := hinv.toNat_ptr
  have hbase : r.buf.base.toNat ≠ 0 := fun hzero =>
    r.buf.base_ne_nullptr (BitVec.eq_of_toNat_eq hzero)
  rw [hnull] at hptr
  change 0 = _ at hptr
  omega

/-- One call: its result is as it has to be if and only if the buffer holds it. -/
theorem BootstrapRun.Inv.wellFormed_iff (hinv : r.Inv) : r.WellFormed call ↔ r.Fits call := by
  by_cases htest : r.buf.idx + call.total ≤ sizeofBootstrapBuf
  · obtain ⟨hptr, hbase, hidx, hbytes⟩ := BootstrapBuf.answer_granted htest
    have hne := hinv.ptr_ne_nullptr
    have haddress := hinv.toNat_ptr
    constructor
    · intro hwell _
      have hinside := (hwell.inside (by rwa [hptr])).2
      have haligned := hwell.aligned (by rwa [hptr])
      rw [hptr, haddress] at hinside haligned
      exact ⟨(Nat.dvd_add_right hinv.aligned).mp haligned, by omega⟩
    · intro hfit
      obtain ⟨haligned, hfits⟩ := hfit htest
      have hsize : sizeofBootstrapBuf.toNat = 65536 := rfl
      have htotal : call.total.toNat = call.requested :=
        BootstrapCall.toNat_total (by omega)
      refine ⟨fun _ => ?_, fun _ handout hhandout => ?_, fun _ => ?_, fun _ => ?_, fun h => ?_⟩
      · rw [hptr, haddress]
        omega
      · have hbelow := hinv.below handout hhandout
        rw [hptr, Handout.range, Handout.range, Set.disjoint_left]
        intro address hnew hold
        simp only [Set.mem_Ico, haddress] at hnew hold
        omega
      · rw [hptr, haddress]
        exact Nat.dvd_add hinv.aligned haligned
      · rintro nmemb size rfl address haddress'
        rw [hbytes nmemb size rfl]
        rw [hptr, Handout.range, Set.mem_Ico, haddress] at haddress'
        simp only at haddress'
        change (nmemb * size).toNat = _ at htotal
        exact zeroFill_eq_zero _ (by omega) (by omega)
      · rw [hptr] at h
        exact absurd h hne
  · have hanswer := BootstrapBuf.answer_refused htest
    refine iff_of_true ?_ (fun h => absurd h htest)
    constructor
    all_goals
      rw [hanswer]
      simp

theorem BootstrapRun.Inv.step (hinv : r.Inv) (hfit : r.Fits call)
    (hstep : r.step call = some next) : next.Inv := by
  simp only [BootstrapRun.step] at hstep
  by_cases htest : r.buf.idx + call.total ≤ sizeofBootstrapBuf
  · obtain ⟨hptr, hbase, hidx, -⟩ := BootstrapBuf.answer_granted htest
    obtain ⟨-, hfits⟩ := hfit htest
    rw [hptr, if_neg hinv.ptr_ne_nullptr] at hstep
    obtain rfl := Option.some.inj hstep
    have hsize : sizeofBootstrapBuf.toNat = 65536 := rfl
    have htotal : call.total.toNat = call.requested :=
      BootstrapCall.toNat_total (by omega)
    have hindex : (r.buf.answer call).2.idx.toNat = r.buf.idx.toNat + call.requested := by
      rw [hidx, BitVec.toNat_add, htotal, Nat.mod_eq_of_lt (by omega)]
    refine ⟨?_, ?_, ?_⟩
    · rw [hbase]
      exact hinv.aligned
    · rw [hindex]
      exact hfits
    · intro handout hhandout
      rw [hbase, hindex]
      rcases List.mem_append.mp hhandout with hold | hnew
      · have hbelow := hinv.below handout hold
        omega
      · rw [List.mem_singleton.mp hnew, hinv.toNat_ptr, Nat.add_assoc]
  · rw [BootstrapBuf.answer_refused htest, if_pos rfl] at hstep
    obtain rfl := Option.some.inj hstep
    exact hinv

/-- The hook is the bootstrap branch while `in_dlsym` is set and its function is
unresolved. -/
theorem BootstrapCall.hook_steps (env : InitEnv) {s : HookShared} (hdlsym : s.inDlsym = true)
    (hreal : s.real call.hook.realName = false) :
    HookFrame.step env ⟨.hook call.hook, .testing⟩ s = some (s, some .testingDlsym) ∧
      HookFrame.step env ⟨.hook call.hook, .testingDlsym⟩ s = some (s, some .bumping) ∧
        HookFrame.step env ⟨.hook call.hook, .bumping⟩ s = some ({ s with
          buf := (s.buf.answer call).2
          owned := (gained (.ok (s.buf.answer call).1)).toList ++ s.owned }, none) := by
  refine ⟨?_, by simp [HookFrame.step, hdlsym], ?_⟩
  · cases call with
    | malloc | calloc =>
        simp only [hook] at hreal
        simp [HookFrame.step, HookShared.testReal, hook, hreal]
  · cases call with
    | malloc | calloc => rfl

end

/-- Over any sequence of calls: all results are as they have to be if and only if the
buffer holds each of those that the code grants. -/
theorem bootstrap_regions_iff (buf : BootstrapBuf) (hloaded : buf.idx = 0)
    (haligned : maxAlign.toNat ∣ buf.base.toNat) (calls : List BootstrapCall) :
    Along BootstrapRun.step BootstrapRun.WellFormed ⟨buf, []⟩ calls ↔
      Along BootstrapRun.step BootstrapRun.Fits ⟨buf, []⟩ calls := by
  have hbegin : BootstrapRun.Inv ⟨buf, []⟩ := by
    refine ⟨haligned, ?_, by simp⟩
    rw [hloaded]
    exact Nat.zero_le _
  constructor
  · apply Along.imp _ (fun _ _ hinv hwell => hinv.wellFormed_iff.mp hwell) hbegin
    intro r call next hinv hwell hstep
    exact hinv.step (hinv.wellFormed_iff.mp hwell) hstep
  · apply Along.imp _ (fun _ _ hinv hfit => hinv.wellFormed_iff.mpr hfit) hbegin
    intro r call next hinv hfit hstep
    exact hinv.step hfit hstep

/-- A size that wraps moves the index back, into the region handed out before. -/
example : (BootstrapBuf.answer { BootstrapWitness.loaded with idx := 16 }
    (.malloc 0xfffffffffffffff8)).2.idx = 8 := by
  decide

namespace RegionsWitness

open BootstrapWitness

def calls : List BootstrapCall :=
  [.calloc 1 32, .malloc 16, .malloc 5, .calloc 0xffffffff 0xffffffff]

theorem calls_wellFormed_iff :
    Along BootstrapRun.step BootstrapRun.WellFormed ⟨loaded, []⟩ calls ↔
      Along BootstrapRun.step BootstrapRun.Fits ⟨loaded, []⟩ calls :=
  bootstrap_regions_iff loaded rfl (by decide) calls

/-- The second result is at the odd address behind the first. -/
theorem odd_size_misaligns :
    ¬ ∀ (buf : BootstrapBuf), buf.idx = 0 → maxAlign.toNat ∣ buf.base.toNat →
      ∀ calls : List BootstrapCall,
        Along BootstrapRun.step BootstrapRun.WellFormed ⟨buf, []⟩ calls := by
  intro hwell
  obtain ⟨-, hrest⟩ := hwell loaded rfl (by decide) [.malloc 1, .malloc 8]
  have haligned := (hrest _ rfl).1.aligned (by decide)
  exact absurd haligned (by decide)

end RegionsWitness

end Domovoy
