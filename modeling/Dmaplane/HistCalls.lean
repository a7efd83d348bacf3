import Dmaplane.IoctlAtomic
import Dmaplane.Lib.System
import Mathlib.Data.Fintype.Card
import Mathlib.Algebra.BigOperators.Group.Finset.Basic

/-!
# Dmaplane.HistCalls

`dmaplane_histogram_record` and GET_HISTOGRAM calls that share one histogram, interleaved at their
atomic operations: a step is one `atomic64_*` operation, or one copy from or to user space, of one
call. `atomic64_try_cmpxchg` that fails leaves the value it found in `old`, and the loop tests it
again.

The calls are a finite family `req`; no call waits for another, so every order of calls on any
number of threads is among these runs.

* `HistField`: the atomics that add up, apart from the minimum and the maximum.
* `HistReq.op`: what the next operation of a call does to them; `callStep_spec` is all that later
  proofs know of a step.
-/

namespace Dmaplane

/-! ## Fields -/

inductive HistField where
  | bucket (i : Fin histBuckets)
  | count
  | sumNs
  deriving DecidableEq

def Histogram.get (hist : Histogram) : HistField → BitVec 64
  | .bucket i => hist.buckets i
  | .count => hist.count
  | .sumNs => hist.sumNs

/-- `atomic64_set` on a field. -/
def Histogram.set (hist : Histogram) (x : BitVec 64) : HistField → Histogram
  | .bucket i => { hist with buckets := Function.update hist.buckets i x }
  | .count => { hist with count := x }
  | .sumNs => { hist with sumNs := x }

@[simp] theorem Histogram.get_set (hist : Histogram) (x : BitVec 64) (f f' : HistField) :
    (hist.set x f).get f' = if f' = f then x else hist.get f' := by
  cases f <;> cases f' <;> simp [set, get, Function.update_apply]

@[simp] theorem Histogram.minNs_set (hist : Histogram) (x : BitVec 64) (f : HistField) :
    (hist.set x f).minNs = hist.minNs := by cases f <;> rfl

@[simp] theorem Histogram.maxNs_set (hist : Histogram) (x : BitVec 64) (f : HistField) :
    (hist.set x f).maxNs = hist.maxNs := by cases f <;> rfl

@[simp] theorem Histogram.get_minNs (hist : Histogram) (x : BitVec 64) (f : HistField) :
    { hist with minNs := x }.get f = hist.get f := by cases f <;> rfl

@[simp] theorem Histogram.get_maxNs (hist : Histogram) (x : BitVec 64) (f : HistField) :
    { hist with maxNs := x }.get f = hist.get f := by cases f <;> rfl

@[simp] theorem get_histogramInit (f : HistField) : histogramInit.get f = 0 := by
  cases f <;> rfl

theorem Histogram.ext_get {hist hist' : Histogram} (h : ∀ f, hist.get f = hist'.get f)
    (hmin : hist.minNs = hist'.minNs) (hmax : hist.maxNs = hist'.maxNs) : hist = hist' := by
  have hb : hist.buckets = hist'.buckets := funext fun i => h (.bucket i)
  have hc : hist.count = hist'.count := h .count
  have hs : hist.sumNs = hist'.sumNs := h .sumNs
  cases hist; cases hist'
  simp_all

/-- What a sample adds to a field. -/
def histContrib (latencyNs : BitVec 64) : HistField → BitVec 64
  | .bucket i => if i = histBucket latencyNs then 1 else 0
  | .count => 1
  | .sumNs => latencyNs

theorem get_histogramRecord (hist : Histogram) (latencyNs : BitVec 64) (f : HistField) :
    (histogramRecord hist latencyNs).get f = hist.get f + histContrib latencyNs f := by
  cases f with
  | bucket i =>
    by_cases hi : i = histBucket latencyNs
    · subst hi; simp [histogramRecord, Histogram.get, histContrib]
    · simp [histogramRecord, Histogram.get, histContrib, hi]
  | count => rfl
  | sumNs => rfl

/-! ## Calls -/

/-- A call: the sample it records, or what its two copies between kernel and user space do. -/
inductive HistReq where
  | record (latencyNs : BitVec 64)
  | getHistogram (copyFrom : Option HistParams) (copyTo : Bool)
  deriving DecidableEq

/-- `hp.reset`. -/
def HistReq.resets : HistReq → Bool
  | .record _ => false
  | .getHistogram copyFrom _ => copyFrom.any fun hp => hp.reset ≠ 0

/-- What the call adds to a field in all. -/
def HistReq.contrib : HistReq → HistField → BitVec 64
  | .record latencyNs, f => histContrib latencyNs f
  | .getHistogram _ _, _ => 0

/-- The next operation of `dmaplane_histogram_record`. -/
inductive RecordPc where
  | bucket
  | count
  | sum
  | minRead
  | minLoop (old : BitVec 64)
  | maxRead
  | maxLoop (old : BitVec 64)
  | done
  deriving DecidableEq

/-- The next operation of `dmaplane_ioctl_get_histogram`: the reads of
`dmaplane_histogram_summarize`, the reads of the buckets, `dmaplane_histogram_reset`. -/
inductive GetPc where
  | copyFrom
  | count
  | sum
  | min
  | max
  | scan (i : Fin histBuckets)
  | bucket (i : Fin histBuckets)
  | clearBucket (i : Fin histBuckets)
  | clearCount
  | clearSum
  | clearMin
  | clearMax
  | copyTo
  /-- `-EFAULT` before anything is read. -/
  | rejected
  | done (copied : Bool)
  deriving DecidableEq

structure HistGet where
  pc : GetPc
  /-- What `dmaplane_histogram_summarize` has read. -/
  read : Histogram
  /-- `hp.buckets`. -/
  buckets : Fin histBuckets → BitVec 64
  deriving DecidableEq

inductive HistCall where
  | record (pc : RecordPc)
  | get (g : HistGet)
  deriving DecidableEq

def HistReq.start : HistReq → HistCall
  | .record _ => .record .bucket
  | .getHistogram _ _ => .get ⟨.copyFrom, histogramInit, fun _ => 0⟩

/-- `dmaplane_histogram_record`. -/
def recordStep (hist : Histogram) (latencyNs : BitVec 64) :
    RecordPc → Option (Histogram × RecordPc)
  | .bucket =>
    let bucket := histBucket latencyNs
    some (hist.set (hist.buckets bucket + 1) (.bucket bucket), .count)
  | .count => some (hist.set (hist.count + 1) .count, .sum)
  | .sum => some (hist.set (hist.sumNs + latencyNs) .sumNs, .minRead)
  | .minRead => some (hist, .minLoop hist.minNs)
  | .minLoop old =>
    if latencyNs < old then
      if hist.minNs = old then some ({ hist with minNs := latencyNs }, .maxRead)
      else some (hist, .minLoop hist.minNs)
    else some (hist, .maxRead)
  | .maxRead => some (hist, .maxLoop hist.maxNs)
  | .maxLoop old =>
    if latencyNs > old then
      if hist.maxNs = old then some ({ hist with maxNs := latencyNs }, .done)
      else some (hist, .maxLoop hist.maxNs)
    else some (hist, .done)
  | .done => none

/-- The next index of a loop over the buckets. -/
def nextBucket (i : Fin histBuckets) : Option (Fin histBuckets) :=
  if h : (i : Nat) + 1 < histBuckets then some ⟨i + 1, h⟩ else none

/-- `dmaplane_ioctl_get_histogram`. -/
def getStep (hist : Histogram) (copyFrom : Option HistParams) (copyTo : Bool) (g : HistGet) :
    Option (Histogram × HistGet) :=
  match g.pc with
  | .copyFrom => some (hist, { g with pc := if copyFrom.isSome then .count else .rejected })
  | .count => some (hist, { g with pc := .sum, read := { g.read with count := hist.count } })
  | .sum => some (hist, { g with pc := .min, read := { g.read with sumNs := hist.sumNs } })
  | .min =>
    -- `total > 0 ? atomic64_read(&hist->min_ns) : 0`
    some (hist, { g with
      pc := .max
      read := { g.read with minNs := if g.read.count > 0 then hist.minNs else 0 } })
  | .max =>
    some (hist, { g with
      pc := if g.read.count = 0 then .bucket 0 else .scan 0
      read := { g.read with maxNs := hist.maxNs } })
  | .scan i =>
    some (hist, { g with
      pc := match nextBucket i with
        | some j => .scan j
        | none => .bucket 0
      read := g.read.set (hist.buckets i) (.bucket i) })
  | .bucket i =>
    some (hist, { g with
      pc := match nextBucket i with
        | some j => .bucket j
        | none => if (HistReq.getHistogram copyFrom copyTo).resets then .clearBucket 0 else .copyTo
      buckets := Function.update g.buckets i (hist.buckets i) })
  | .clearBucket i =>
    some (hist.set 0 (.bucket i), { g with
      pc := match nextBucket i with
        | some j => .clearBucket j
        | none => .clearCount })
  | .clearCount => some (hist.set 0 .count, { g with pc := .clearSum })
  | .clearSum => some (hist.set 0 .sumNs, { g with pc := .clearMin })
  | .clearMin => some ({ hist with minNs := u64Max }, { g with pc := .clearMax })
  | .clearMax => some ({ hist with maxNs := 0 }, { g with pc := .copyTo })
  | .copyTo => some (hist, { g with pc := .done copyTo })
  | .rejected => none
  | .done _ => none

/-- What GET_HISTOGRAM copies out. -/
def HistGet.params (g : HistGet) (hp : HistParams) : HistParams :=
  { hp with summary := histogramSummarize g.read, buckets := g.buckets }

def callStep (hist : Histogram) : HistReq → HistCall → Option (Histogram × HistCall)
  | .record latencyNs, .record pc =>
    (recordStep hist latencyNs pc).map fun x => (x.1, .record x.2)
  | .getHistogram copyFrom copyTo, .get g =>
    (getStep hist copyFrom copyTo g).map fun x => (x.1, .get x.2)
  | _, _ => none

structure HistSt (ι : Type) where
  hist : Histogram
  calls : ι → HistCall

/-- The label is the call that takes its next operation. -/
def histSys {ι : Type} [DecidableEq ι] (req : ι → HistReq) : Transition.Sys (HistSt ι) ι where
  init := ⟨histogramInit, fun i => (req i).start⟩
  step := fun s i => (callStep s.hist (req i) (s.calls i)).map fun x =>
    ⟨x.1, Function.update s.calls i x.2⟩

def HistCall.finished : HistCall → Bool
  | .record pc => pc = .done
  | .get g => match g.pc with
    | .rejected | .done _ => true
    | _ => false

/-- The snapshot that a call has returned. -/
def HistReq.returned : HistReq → HistCall → Option HistParams
  | .getHistogram (some hp) _, .get g => if g.pc = .done true then some (g.params hp) else none
  | _, _ => none

/-! ## What an operation does -/

/-- An operation, as far as the fields are concerned. -/
inductive HistOp where
  | add (f : HistField)
  | read (f : HistField)
  | clear (f : HistField)
  | copyTo (copied : Bool)
  | other
  deriving DecidableEq

/-- The next operation of a call. -/
def HistReq.op : HistReq → HistCall → HistOp
  | .record latencyNs, .record pc => match pc with
    | .bucket => .add (.bucket (histBucket latencyNs))
    | .count => .add .count
    | .sum => .add .sumNs
    | _ => .other
  | .getHistogram _ copyTo, .get g => match g.pc with
    | .count => .read .count
    | .sum => .read .sumNs
    | .bucket i => .read (.bucket i)
    | .clearBucket i => .clear (.bucket i)
    | .clearCount => .clear .count
    | .clearSum => .clear .sumNs
    | .copyTo => .copyTo copyTo
    | _ => .other
  | _, _ => .other

/-- The call has made its increment of the field. -/
def HistReq.counted : HistReq → HistCall → HistField → Bool
  | .record latencyNs, .record pc, f => match f with
    | .bucket i => i = histBucket latencyNs && pc ≠ .bucket
    | .count => pc ≠ .bucket && pc ≠ .count
    | .sumNs => pc ≠ .bucket && pc ≠ .count && pc ≠ .sum
  | _, _, _ => false

/-- How far a GET_HISTOGRAM is. -/
def GetPc.rank : GetPc → Nat
  | .rejected | .copyFrom => 0
  | .count => 1
  | .sum => 2
  | .min => 3
  | .max => 4
  | .scan i => 5 + i
  | .bucket i => 21 + i
  | .clearBucket i => 37 + i
  | .clearCount => 53
  | .clearSum => 54
  | .clearMin => 55
  | .clearMax => 56
  | .copyTo => 57
  | .done _ => 58

def HistField.readAt : HistField → Nat
  | .count => 1
  | .sumNs => 2
  | .bucket i => 21 + i

def HistField.clearAt : HistField → Nat
  | .bucket i => 37 + i
  | .count => 53
  | .sumNs => 54

def HistCall.hasRead : HistCall → HistField → Bool
  | .get g, f => f.readAt < g.pc.rank
  | .record _, _ => false

def HistCall.hasCleared : HistCall → HistField → Bool
  | .get g, f => f.clearAt < g.pc.rank
  | .record _, _ => false

/-- What a GET_HISTOGRAM has read of a field, for its snapshot. -/
def HistCall.seen : HistCall → HistField → BitVec 64
  | .get g, .bucket i => g.buckets i
  | .get g, .count => g.read.count
  | .get g, .sumNs => g.read.sumNs
  | .record _, _ => 0

/-! ## Effect of a step -/

-- Their equations are made here, once for the proofs below.
attribute [local simp] recordStep getStep callStep

theorem nextBucket_some {i j : Fin histBuckets} (h : nextBucket i = some j) :
    (j : Nat) = i + 1 := by
  unfold nextBucket at h
  split at h <;> simp at h
  subst h; rfl

theorem nextBucket_none {i : Fin histBuckets} (h : nextBucket i = none) : (i : Nat) = 15 := by
  unfold nextBucket at h
  have hi := i.isLt
  split at h <;> simp at h
  simp only [histBuckets] at *
  omega

/-- The field after the operation. -/
def HistOp.apply (hist : Histogram) (req : HistReq) (f : HistField) : HistOp → BitVec 64
  | .add f' => if f = f' then hist.get f + req.contrib f else hist.get f
  | .clear f' => if f = f' then 0 else hist.get f
  | _ => hist.get f

/-- All that a step of a call does to the fields and to what the call has done so far. -/
structure HistEffect (req : HistReq) (hist hist' : Histogram) (c c' : HistCall) : Prop where
  get : ∀ f, hist'.get f = (req.op c).apply hist req f
  counted : ∀ f, req.counted c' f = true ↔ req.counted c f = true ∨ req.op c = .add f
  hasRead : ∀ f, c'.hasRead f = true ↔ c.hasRead f = true ∨ req.op c = .read f
  hasCleared : req.resets = true →
    ∀ f, c'.hasCleared f = true ↔ c.hasCleared f = true ∨ req.op c = .clear f
  seen : ∀ f, c'.seen f = if req.op c = .read f then hist.get f else c.seen f

theorem HistEffect.of_record {hist hist' : Histogram} {latencyNs : BitVec 64} {pc pc' : RecordPc}
    (hget : ∀ f, hist'.get f =
      ((HistReq.record latencyNs).op (.record pc)).apply hist (.record latencyNs) f)
    (hcounted : ∀ f, (HistReq.record latencyNs).counted (.record pc') f = true ↔
      (HistReq.record latencyNs).counted (.record pc) f = true ∨
        (HistReq.record latencyNs).op (.record pc) = .add f) :
    HistEffect (.record latencyNs) hist hist' (.record pc) (.record pc') := by
  refine ⟨hget, hcounted, fun f => ?_, fun hr => (by cases hr), fun f => ?_⟩
  · cases pc <;> simp [HistCall.hasRead, HistReq.op]
  · cases pc <;> simp [HistCall.seen, HistReq.op]

theorem recordStep_effect {hist hist' : Histogram} {latencyNs : BitVec 64} {pc pc' : RecordPc}
    (h : recordStep hist latencyNs pc = some (hist', pc')) :
    HistEffect (.record latencyNs) hist hist' (.record pc) (.record pc') := by
  apply HistEffect.of_record
  · intro f
    cases pc with
    | bucket | count | sum =>
      simp only [recordStep, Option.some.injEq, Prod.mk.injEq] at h
      obtain ⟨rfl, rfl⟩ := h
      simp only [HistReq.op, HistOp.apply, HistReq.contrib, Histogram.get_set]
      split
      · subst f; simp [Histogram.get, histContrib]
      · rfl
    | minLoop old | maxLoop old =>
      simp only [recordStep] at h
      split at h
      · split at h <;> cases h <;> simp [HistReq.op, HistOp.apply]
      · cases h; rfl
    | minRead | maxRead => cases h; rfl
    | done => cases h
  · intro f
    cases pc with
    | bucket | count | sum =>
      simp only [recordStep, Option.some.injEq, Prod.mk.injEq] at h
      obtain ⟨rfl, rfl⟩ := h
      cases f <;> simp [HistReq.counted, HistReq.op, eq_comm]
    | minLoop old | maxLoop old =>
      simp only [recordStep] at h
      split at h
      · split at h <;> cases h <;> cases f <;> simp [HistReq.op, HistReq.counted]
      · cases h; cases f <;> simp [HistReq.op, HistReq.counted]
    | minRead | maxRead => cases h; cases f <;> simp [HistReq.op, HistReq.counted]
    | done => cases h

theorem HistEffect.of_get {hist hist' : Histogram} {copyFrom : Option HistParams} {copyTo : Bool}
    {g g' : HistGet}
    (hget : ∀ f, hist'.get f = ((HistReq.getHistogram copyFrom copyTo).op (.get g)).apply hist
      (.getHistogram copyFrom copyTo) f)
    (hread : ∀ f : HistField, f.readAt < g'.pc.rank ↔
      f.readAt < g.pc.rank ∨ (HistReq.getHistogram copyFrom copyTo).op (.get g) = .read f)
    (hclear : (HistReq.getHistogram copyFrom copyTo).resets = true → ∀ f : HistField,
      f.clearAt < g'.pc.rank ↔
        f.clearAt < g.pc.rank ∨ (HistReq.getHistogram copyFrom copyTo).op (.get g) = .clear f)
    (hseen : ∀ f, (HistCall.get g').seen f =
      if (HistReq.getHistogram copyFrom copyTo).op (.get g) = .read f then hist.get f
      else (HistCall.get g).seen f) :
    HistEffect (.getHistogram copyFrom copyTo) hist hist' (.get g) (.get g') := by
  refine ⟨hget, fun f => ?_, fun f => ?_, fun hr f => ?_, hseen⟩
  · rcases g with ⟨pc, r, b⟩
    cases pc <;> simp [HistReq.counted, HistReq.op]
  · simpa [HistCall.hasRead] using hread f
  · simpa [HistCall.hasCleared] using hclear hr f

theorem getStep_rank {hist hist' : Histogram} {copyFrom : Option HistParams} {copyTo : Bool}
    {g g' : HistGet} (h : getStep hist copyFrom copyTo g = some (hist', g')) :
    g'.pc.rank = g.pc.rank + 1 ∨ g.pc = .copyFrom ∧ g'.pc = .rejected ∨
      g.pc = .max ∧ g'.pc = .bucket 0 ∨
      g.pc = .bucket 15 ∧ g'.pc = .copyTo ∧
        (HistReq.getHistogram copyFrom copyTo).resets = false := by
  rcases g with ⟨pc, r, b⟩
  cases pc with
  | copyFrom =>
    cases h
    cases copyFrom <;> simp [GetPc.rank]
  | max =>
    cases h
    by_cases hc : r.count = 0#64 <;> simp [GetPc.rank, hc]
  | scan i =>
    cases h
    cases hn : nextBucket i with
    | none => have := nextBucket_none hn; simp [GetPc.rank, this]
    | some j => have := nextBucket_some hn; simp [GetPc.rank, this]; omega
  | bucket i =>
    cases h
    cases hn : nextBucket i with
    | none =>
      have hi := nextBucket_none hn
      have hi' : i = 15 := Fin.ext hi
      cases hr : (HistReq.getHistogram copyFrom copyTo).resets with
      | true => simp [GetPc.rank, hi]
      | false => simp [hi']
    | some j => have := nextBucket_some hn; simp [GetPc.rank, this]; omega
  | clearBucket i =>
    cases h
    cases hn : nextBucket i with
    | none => have := nextBucket_none hn; simp [GetPc.rank, this]
    | some j => have := nextBucket_some hn; simp [GetPc.rank, this]; omega
  | rejected | done copied => cases h
  | _ => cases h; simp [GetPc.rank]

theorem bucket_lt (i : Fin histBuckets) : (i : Nat) < 16 := i.isLt

theorem readAt_range (f : HistField) :
    f.readAt = 1 ∨ f.readAt = 2 ∨ 21 ≤ f.readAt ∧ f.readAt ≤ 36 := by
  cases f with
  | bucket i => have := bucket_lt i; simp only [HistField.readAt]; omega
  | count | sumNs => simp [HistField.readAt]

theorem clearAt_range (f : HistField) : 37 ≤ f.clearAt ∧ f.clearAt ≤ 54 := by
  cases f with
  | bucket i => have := bucket_lt i; simp only [HistField.clearAt]; omega
  | count | sumNs => simp [HistField.clearAt]

theorem op_eq_read {copyFrom : Option HistParams} {copyTo : Bool} {g : HistGet} {f : HistField} :
    (HistReq.getHistogram copyFrom copyTo).op (.get g) = .read f ↔ g.pc.rank = f.readAt := by
  rcases g with ⟨pc, r, b⟩
  have hf := readAt_range f
  cases pc with
  | bucket i =>
    cases f with
    | bucket j => simp [HistReq.op, GetPc.rank, HistField.readAt, Fin.ext_iff]
    | count | sumNs => simp [HistReq.op, GetPc.rank, HistField.readAt]; omega
  | scan i => have := bucket_lt i; simp [HistReq.op, GetPc.rank]; omega
  | count | sum => cases f <;> simp [HistReq.op, GetPc.rank, HistField.readAt]; omega
  | _ => simp [HistReq.op, GetPc.rank]; omega

theorem op_eq_clear {copyFrom : Option HistParams} {copyTo : Bool} {g : HistGet} {f : HistField} :
    (HistReq.getHistogram copyFrom copyTo).op (.get g) = .clear f ↔ g.pc.rank = f.clearAt := by
  rcases g with ⟨pc, r, b⟩
  have hf := clearAt_range f
  cases pc with
  | clearBucket i =>
    have := bucket_lt i
    cases f with
    | bucket j => simp [HistReq.op, GetPc.rank, HistField.clearAt, Fin.ext_iff]
    | count | sumNs => simp [HistReq.op, GetPc.rank, HistField.clearAt]; omega
  | scan i | bucket i => have := bucket_lt i; simp [HistReq.op, GetPc.rank]; omega
  | clearCount | clearSum =>
    cases f with
    | bucket j => have := bucket_lt j; simp [HistReq.op, GetPc.rank, HistField.clearAt]; omega
    | count | sumNs => simp [HistReq.op, GetPc.rank, HistField.clearAt]
  | _ => simp [HistReq.op, GetPc.rank]; omega

theorem getStep_seen {hist hist' : Histogram} {copyFrom : Option HistParams} {copyTo : Bool}
    {g g' : HistGet} (h : getStep hist copyFrom copyTo g = some (hist', g')) (f : HistField) :
    (HistCall.get g').seen f =
      if (HistReq.getHistogram copyFrom copyTo).op (.get g) = .read f then hist.get f
      else (HistCall.get g).seen f := by
  rcases g with ⟨pc, r, b⟩
  cases pc with
  | bucket i =>
    cases h
    cases f with
    | bucket j =>
      by_cases hij : i = j
      · subst hij; simp [HistReq.op, HistCall.seen, Histogram.get]
      · simp [HistReq.op, HistCall.seen, hij, Ne.symm hij]
    | count | sumNs => simp [HistReq.op, HistCall.seen]
  | rejected | done copied => cases h
  | _ => cases h; cases f <;> simp [HistReq.op, HistCall.seen, Histogram.get, Histogram.set]

theorem getStep_effect {hist hist' : Histogram} {copyFrom : Option HistParams} {copyTo : Bool}
    {g g' : HistGet} (h : getStep hist copyFrom copyTo g = some (hist', g')) :
    HistEffect (.getHistogram copyFrom copyTo) hist hist' (.get g) (.get g') := by
  have hrank := getStep_rank h
  refine HistEffect.of_get ?_ ?_ ?_ ?_
  · intro f
    rcases g with ⟨pc, r, b⟩
    cases pc <;> cases h <;> simp [HistReq.op, HistOp.apply]
  · intro f
    rw [op_eq_read]
    have hf := readAt_range f
    rcases hrank with hr | ⟨hp, hp'⟩ | ⟨hp, hp'⟩ | ⟨hp, hp', -⟩
    · omega
    · simp [hp, hp', GetPc.rank]; omega
    · simp [hp, hp', GetPc.rank]; omega
    · simp [hp, hp', GetPc.rank]; omega
  · intro hres f
    rw [op_eq_clear]
    have hf := clearAt_range f
    rcases hrank with hr | ⟨hp, hp'⟩ | ⟨hp, hp'⟩ | ⟨-, -, hno⟩
    · omega
    · simp [hp, hp', GetPc.rank]; omega
    · simp [hp, hp', GetPc.rank]; omega
    · rw [hres] at hno; cases hno
  · exact getStep_seen h

theorem callStep_effect {hist hist' : Histogram} {req : HistReq} {c c' : HistCall}
    (h : callStep hist req c = some (hist', c')) : HistEffect req hist hist' c c' := by
  cases req <;> cases c <;> simp [callStep] at h
  · obtain ⟨pc', hs, rfl⟩ := h
    exact recordStep_effect hs
  · obtain ⟨g', hs, rfl⟩ := h
    exact getStep_effect hs

/-! ## Runs -/

/-- A call without `reset` skips `dmaplane_histogram_reset`; one with it is not rejected. -/
def HistReq.Fits : HistReq → HistCall → Prop
  | .record _, .record _ => True
  | .getHistogram copyFrom copyTo, .get g =>
    ((HistReq.getHistogram copyFrom copyTo).resets = false →
        g.pc.rank < 37 ∨ 57 ≤ g.pc.rank) ∧
      ((HistReq.getHistogram copyFrom copyTo).resets = true → g.pc ≠ .rejected)
  | _, _ => False

theorem fits_start (req : HistReq) : req.Fits req.start := by
  cases req with
  | record latencyNs => trivial
  | getHistogram copyFrom copyTo => simp [HistReq.Fits, HistReq.start, GetPc.rank]

theorem getStep_fits {hist hist' : Histogram} {copyFrom : Option HistParams} {copyTo : Bool}
    {g g' : HistGet} (h : getStep hist copyFrom copyTo g = some (hist', g'))
    (hf : (HistReq.getHistogram copyFrom copyTo).Fits (.get g)) :
    (HistReq.getHistogram copyFrom copyTo).Fits (.get g') := by
  rcases g with ⟨pc, r, b⟩
  cases pc with
  | copyFrom =>
    cases h
    cases copyFrom <;> simp [HistReq.Fits, GetPc.rank, HistReq.resets]
  | max =>
    cases h
    by_cases hc : r.count = 0#64 <;> simp [HistReq.Fits, GetPc.rank, hc]
  | scan i =>
    cases h
    cases hn : nextBucket i with
    | none => simp [HistReq.Fits, GetPc.rank]
    | some j => have := bucket_lt j; simp [HistReq.Fits, GetPc.rank]; omega
  | bucket i =>
    cases h
    cases hn : nextBucket i with
    | none =>
      cases hr : (HistReq.getHistogram copyFrom copyTo).resets <;>
        simp [HistReq.Fits, GetPc.rank, hr]
    | some j => have := bucket_lt j; simp [HistReq.Fits, GetPc.rank]; omega
  | clearBucket i =>
    cases h
    have hi := bucket_lt i
    cases hr : (HistReq.getHistogram copyFrom copyTo).resets with
    | false => have := hf.1 hr; simp only [GetPc.rank] at this; omega
    | true => cases hn : nextBucket i <;> simp [HistReq.Fits, hr]
  | clearCount | clearSum | clearMin | clearMax =>
    cases h
    cases hr : (HistReq.getHistogram copyFrom copyTo).resets with
    | false => have := hf.1 hr; simp only [GetPc.rank] at this; omega
    | true => simp [HistReq.Fits, hr]
  | rejected | done copied => cases h
  | _ => cases h; simp [HistReq.Fits, GetPc.rank]

theorem callStep_fits {hist hist' : Histogram} {req : HistReq} {c c' : HistCall}
    (h : callStep hist req c = some (hist', c')) (hf : req.Fits c) : req.Fits c' := by
  cases req <;> cases c <;> simp [callStep] at h
  · obtain ⟨pc', hs, rfl⟩ := h
    trivial
  · obtain ⟨g', hs, rfl⟩ := h
    exact getStep_fits hs hf

theorem HistReq.Fits.clears {req : HistReq} {c : HistCall} {f : HistField} (h : req.Fits c)
    (hop : req.op c = .clear f) : req.resets = true := by
  cases req with
  | record latencyNs => cases c with
    | record pc => cases pc <;> cases hop
    | get g => cases hop
  | getHistogram copyFrom copyTo => cases c with
    | record pc => cases hop
    | get g =>
      have hr := op_eq_clear.mp hop
      have hf := clearAt_range f
      by_contra hno
      have := h.1 (by simpa using hno)
      omega

section Step

variable {ι : Type} [DecidableEq ι] {req : ι → HistReq} {s s' : HistSt ι} {i : ι}

/-- What a step does: one call makes its next operation, the others stay where they are. -/
theorem histSys_step (h : (histSys req).step s i = some s') :
    HistEffect (req i) s.hist s'.hist (s.calls i) (s'.calls i) ∧
      ∀ j, j ≠ i → s'.calls j = s.calls j := by
  simp only [histSys, Option.map_eq_some_iff] at h
  obtain ⟨⟨hist', c'⟩, hs, rfl⟩ := h
  refine ⟨?_, fun j hj => by simp [hj]⟩
  simpa using callStep_effect hs

theorem histSys_callStep (h : (histSys req).step s i = some s') :
    callStep s.hist (req i) (s.calls i) = some (s'.hist, s'.calls i) := by
  simp only [histSys, Option.map_eq_some_iff] at h
  obtain ⟨⟨hist', c'⟩, hs, rfl⟩ := h
  simpa using hs

theorem fits_of_reachable (h : (histSys req).Reachable s) : ∀ i, (req i).Fits (s.calls i) := by
  refine h.invariant (I := fun s => ∀ i, (req i).Fits (s.calls i)) (fun i => fits_start _) ?_
  intro s i s' hI hs j
  by_cases hj : j = i
  · subst hj; exact callStep_fits (histSys_callStep hs) (hI j)
  · rw [(histSys_step hs).2 j hj]; exact hI j

end Step

/-! ## Tally -/

/-- One term of a sum grows. -/
theorem sum_eq_add_of_ne {ι M : Type} [Fintype ι] [DecidableEq ι] [AddCommMonoid M]
    {φ φ' : ι → M} {i : ι} {x : M} (hi : φ' i = φ i + x) (hj : ∀ j, j ≠ i → φ' j = φ j) :
    ∑ j, φ' j = ∑ j, φ j + x := by
  have herase : ∑ j ∈ Finset.univ.erase i, φ' j = ∑ j ∈ Finset.univ.erase i, φ j :=
    Finset.sum_congr rfl fun j h => hj j (Finset.ne_of_mem_erase h)
  rw [← Finset.add_sum_erase _ φ' (Finset.mem_univ i), herase, hi,
    ← Finset.add_sum_erase _ φ (Finset.mem_univ i)]
  exact add_right_comm _ _ _

section Tally

variable {ι : Type} [Fintype ι] {req : ι → HistReq} {s s' : HistSt ι} {i : ι} {f : HistField}

/-- What the increments that the calls in `P` have made add up to. -/
def HistSt.tally (req : ι → HistReq) (s : HistSt ι) (P : ι → Prop) [DecidablePred P]
    (f : HistField) : BitVec 64 :=
  ∑ i, if (req i).counted (s.calls i) f = true ∧ P i then (req i).contrib f else 0

theorem not_counted_of_add {req : HistReq} {c : HistCall} (h : req.op c = .add f) :
    req.counted c f = false := by
  cases req with
  | record latencyNs => cases c with
    | record pc =>
      cases pc <;> simp only [HistReq.op, HistOp.add.injEq, reduceCtorEq] at h <;>
        subst h <;> simp [HistReq.counted]
    | get g => cases h
  | getHistogram copyFrom copyTo => cases c <;> rfl

theorem histTally_step [DecidableEq ι] (hs : (histSys req).step s i = some s') {P P' : ι → Prop}
    [DecidablePred P] [DecidablePred P'] (hother : ∀ j, j ≠ i → (P' j ↔ P j))
    (hself : (req i).counted (s.calls i) f = true → (P' i ↔ P i)) :
    s'.tally req P' f = s.tally req P f +
      if (req i).op (s.calls i) = .add f ∧ P' i then (req i).contrib f else 0 := by
  obtain ⟨he, hcalls⟩ := histSys_step hs
  refine sum_eq_add_of_ne (i := i) ?_ ?_
  · have hc := he.counted f
    by_cases hold : (req i).counted (s.calls i) f = true
    · have hop : (req i).op (s.calls i) ≠ .add f := by
        intro hop; rw [not_counted_of_add hop] at hold; cases hold
      simp [hc, hold, hop, hself hold]
    · simp [hc, hold]
  · intro j hj
    simp only [hcalls j hj, hother j hj]

theorem counted_of_finished {req : HistReq} {c : HistCall} (hf : req.Fits c)
    (hdone : c.finished = true) (f : HistField) :
    req.counted c f = true ∨ req.contrib f = 0 := by
  cases req with
  | record latencyNs => cases c with
    | record pc =>
      have hpc : pc = .done := by simpa [HistCall.finished] using hdone
      subst hpc
      cases f with
      | bucket b =>
        by_cases hb : b = histBucket latencyNs <;>
          simp [HistReq.counted, HistReq.contrib, histContrib, hb]
      | count | sumNs => simp [HistReq.counted]
    | get g => exact hf.elim
  | getHistogram copyFrom copyTo => exact .inr rfl

theorem histTally_finished (hfits : ∀ i, (req i).Fits (s.calls i))
    (hdone : ∀ i, (s.calls i).finished = true) (P : ι → Prop) [DecidablePred P]
    (f : HistField) :
    s.tally req P f = ∑ i, if P i then (req i).contrib f else 0 := by
  refine Finset.sum_congr rfl fun i _ => ?_
  rcases counted_of_finished (hfits i) (hdone i) f with h | h
  · simp [h]
  · simp [h]

theorem sum_contrib_bucket (req : HistReq) :
    ∑ b, req.contrib (.bucket b) = req.contrib .count := by
  cases req with
  | record latencyNs =>
    show (∑ b, if b = histBucket latencyNs then (1 : BitVec 64) else 0) = 1
    rw [Finset.sum_ite_eq' Finset.univ _ fun _ => (1 : BitVec 64)]
    simp
  | getHistogram copyFrom copyTo => exact Finset.sum_const_zero

/-- The samples of any set of calls are as many as they are in the buckets. -/
theorem sum_bucket_eq_count (req : ι → HistReq) (P : ι → Prop) [DecidablePred P] :
    (∑ b, ∑ i, if P i then (req i).contrib (.bucket b) else 0) =
      ∑ i, if P i then (req i).contrib .count else 0 := by
  rw [Finset.sum_comm]
  refine Finset.sum_congr rfl fun i _ => ?_
  by_cases hP : P i
  · simp [hP, sum_contrib_bucket]
  · simp [hP]

end Tally

end Dmaplane
