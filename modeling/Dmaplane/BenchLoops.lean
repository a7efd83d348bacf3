import Mathlib.Data.Nat.Count
import Dmaplane.Lib.Loop
import Dmaplane.MrResources
import Dmaplane.QueueBounds

/-!
# Dmaplane.BenchLoops

When the pipelined benchmarks end: `benchmark_streaming` and `dmaplane_qdepth_sweep` on given
answers of the verbs layer, one sequence for each place that asks it (`BenchEnv`).

The outer loop `while (completed < params->iterations)` leaves through a completion with an error,
a timeout or a post that fails. A negative poll result is none of the branches: the loop goes on.
Every other loop is bounded by its counters and written with that bound. `GoesOn` says, of the
answers alone, that an iteration of the outer loop goes on; `BenchAt` is the invariant behind it.
-/

namespace Dmaplane

/-- What the verbs layer answers to one run. -/
structure BenchEnv where
  /-- The `i`-th receive posted before the loop. -/
  prePost : Nat → Option Errno
  /-- The `i`-th send. -/
  send : Nat → Option Errno
  /-- The `j`-th poll of the send CQ. -/
  poll : Nat → PollResult
  /-- What CQ-B holds after completion `k`, by success. -/
  drained : Nat → List Bool
  /-- The receive posted after completion `k`. -/
  replenish : Nat → Option Errno
  /-- The polls of CQ-B after the loop. -/
  tail : Nat → PollResult

/-! ## The functions -/

/-- `pre_post` of the two benchmarks. -/
def benchPrePost (r : Run) : Nat := prePostCount flowInit r

/-- `for (recv_posted = 0; recv_posted < pre_post; recv_posted++)`, with `n` to go. -/
def prePosts (env : BenchEnv) : Nat → Run → Except Errno Run
  | 0, r => .ok r
  | n + 1, r =>
    match env.prePost r.recvPosted with
    | some e => .error e
    | none => prePosts env n { r with recvPosted := incU32 r.recvPosted }

/-- `while (sent < params->iterations && outstanding < qdepth)`; each round adds one to
`outstanding`, so that `qdepth - outstanding` rounds are enough. -/
def postSends (env : BenchEnv) : Nat → Run → Except Errno Run
  | 0, r => .ok r
  | n + 1, r =>
    if r.sent < r.iterations ∧ r.outstanding < r.qdepth then
      match env.send r.sent with
      | some e => .error e
      | none =>
        postSends env n
          { r with sent := incU32 r.sent, outstanding := incU32 r.outstanding }
    else .ok r

/-- `while (ib_poll_cq(ctx->cq_b, 1, &wc) > 0)`. -/
def drainAll (cqes : List Bool) (recvDrained : Nat) : Nat :=
  cqes.foldl (fun n ok => if ok then incU32 n else n) recvDrained

/-- The branch of a successful completion. A receive that cannot be posted ends the streaming
run, the sweep goes on without it. -/
def onCompletion (env : BenchEnv) (r : Run) : Run ⊕ Except Errno Run :=
  let k := r.completed
  let r := { r with
    outstanding := decU32 r.outstanding, completed := incU32 r.completed
    recvDrained := drainAll (env.drained k) r.recvDrained }
  if r.recvPosted < r.iterations then
    match env.replenish k with
    | none => .inl { r with recvPosted := incU32 r.recvPosted }
    | some e =>
      match r.kind with
      | .sweep _ _ => .inl r
      | _ => .inr (.error e)
  else .inl r

/-- Iteration `j` of the outer loop. -/
def benchBody (env : BenchEnv) (j : Nat) (r : Run) : Run ⊕ Except Errno Run :=
  if r.completed < r.iterations then
    match postSends env (r.qdepth - r.outstanding) r with
    | .error e => .inr (.error e)
    | .ok r =>
      match env.poll j with
      | .cqe true => onCompletion env r
      | .cqe false => .inr (.error Errno.EIO)
      | .timeout => .inr (.error .ETIMEDOUT)
      -- no branch for a negative result
      | .error _ => .inl r
  else .inr (.ok r)

/-- `while (recv_drained < completed)`, with at most `n` rounds to go. -/
def recvDrain (env : BenchEnv) : Nat → Nat → Run → Run
  | 0, _, r => r
  | n + 1, i, r =>
    if r.recvDrained < r.completed then
      match env.tail i with
      | .cqe true => recvDrain env n (i + 1) { r with recvDrained := incU32 r.recvDrained }
      | _ => r
    else r

/-- One run, from the flushed CQs to the end of its loops; `none` if `fuel` iterations of the outer
loop are not enough. -/
def benchRun (env : BenchEnv) (fuel : Nat) (r : Run) : Option (Except Errno Run) :=
  match prePosts env (benchPrePost r) r with
  | .error e => some (.error e)
  | .ok r =>
    (Loop.run (benchBody env) fuel 0 r).map fun
      | .error e => .error e
      | .ok r => .ok (recvDrain env (r.completed - r.recvDrained) 0 r)

/-- `benchmark_streaming`, on a request it accepts: the error it returns, or its locals where it
returns 0. -/
def benchmarkStreaming (env : BenchEnv) (p : StreamParams) (fuel : Nat) :
    Option (Except Errno Run) :=
  benchRun env fuel (streamRun p)

/-- The points of the sweep from `point` on, `n` in number. -/
def sweepPoints (env : Nat → BenchEnv) (p : SweepParams) (fuel : Nat) :
    Nat → Nat → Option (Except Errno (List Run))
  | 0, _ => some (.ok [])
  | n + 1, point =>
    match benchRun (env point) fuel (sweepRun p point) with
    | none => none
    | some (.error e) => some (.error e)
    | some (.ok r) =>
      (sweepPoints env p fuel n (point + 1)).map fun
        | .error e => .error e
        | .ok rs => .ok (r :: rs)

/-- `dmaplane_qdepth_sweep`, on a request it accepts: the error, or the points' locals. -/
def qdepthSweep (env : Nat → BenchEnv) (p : SweepParams) (fuel : Nat) :
    Option (Except Errno (List Run)) :=
  sweepPoints env p fuel (nrPoints p) 0

/-! ## The bounds of the inner loops -/

/-- The loop over the pre-posted receives ends by its own condition. -/
theorem prePosts_ok {env : BenchEnv} : ∀ {n : Nat} {r : Run}, r.recvPosted + n < 2 ^ 32 →
    (∀ i, r.recvPosted ≤ i → i < r.recvPosted + n → env.prePost i = none) →
    prePosts env n r = .ok { r with recvPosted := r.recvPosted + n } := by
  intro n
  induction n with
  | zero => intro r _ _; rfl
  | succ n ih =>
    intro r hlt hall
    have hinc : incU32 r.recvPosted = r.recvPosted + 1 := incU32_eq (by omega) hlt
    rw [prePosts, hall r.recvPosted (Nat.le_refl _) (by omega)]
    show prePosts env n _ = _
    rw [hinc, ih (by show r.recvPosted + 1 + n < _; omega)
      fun i h1 h2 => hall i (Nat.le_of_succ_le h1) (by
        have : i < r.recvPosted + 1 + n := h2
        omega)]
    show Except.ok { r with recvPosted := r.recvPosted + 1 + n } = _
    rw [Nat.add_right_comm, Nat.add_assoc]

theorem prePosts_error {env : BenchEnv} : ∀ {n : Nat} {r : Run}, r.recvPosted + n < 2 ^ 32 →
    (∃ i, r.recvPosted ≤ i ∧ i < r.recvPosted + n ∧ env.prePost i ≠ none) →
    ∃ e, prePosts env n r = .error e := by
  intro n
  induction n with
  | zero => rintro r _ ⟨i, h1, h2, _⟩; omega
  | succ n ih =>
    rintro r hlt ⟨i, h1, h2, hne⟩
    have hinc : incU32 r.recvPosted = r.recvPosted + 1 := incU32_eq (by omega) hlt
    rw [prePosts]
    cases hp : env.prePost r.recvPosted with
    | some e => exact ⟨e, rfl⟩
    | none =>
      have hi : i ≠ r.recvPosted := by rintro rfl; exact hne hp
      refine ih (by show incU32 r.recvPosted + n < _; omega) ⟨i, ?_, ?_, hne⟩
      · show incU32 r.recvPosted ≤ i; omega
      · show i < incU32 r.recvPosted + n; omega

/-- How many sends have been posted once the queue is full after `c` completions. -/
def sendTarget (r : Run) (c : Nat) : Nat := min r.iterations (r.qdepth + c)

/-- `sent` is `outstanding` and the `c` completions, and no send has been posted too many. -/
structure SendOk (r : Run) (c : Nat) : Prop where
  iterations : r.iterations < 2 ^ 32
  qdepth : r.qdepth < 2 ^ 32
  balance : r.outstanding + c = r.sent
  sent : r.sent ≤ sendTarget r c

theorem postSends_ok {env : BenchEnv} {c : Nat} : ∀ {n : Nat} {r : Run}, SendOk r c →
    r.qdepth ≤ r.outstanding + n →
    (∀ i, r.sent ≤ i → i < sendTarget r c → env.send i = none) →
    postSends env n r = .ok { r with sent := sendTarget r c, outstanding := sendTarget r c - c } := by
  intro n
  induction n with
  | zero =>
    intro r hok hn _
    obtain ⟨hit, hq, hbal, hsent⟩ := hok
    have hfull : sendTarget r c = r.sent := by simp only [sendTarget] at hsent ⊢; omega
    have hout : r.sent - c = r.outstanding := by omega
    rw [postSends, hfull, hout]
  | succ n ih =>
    intro r hok hn hall
    obtain ⟨hit, hq, hbal, hsent⟩ := hok
    rw [postSends]
    by_cases hmore : r.sent < r.iterations ∧ r.outstanding < r.qdepth
    · have hlt : r.sent < sendTarget r c := by simp only [sendTarget]; omega
      have hs : incU32 r.sent = r.sent + 1 := incU32_eq hmore.1 hit
      have ho : incU32 r.outstanding = r.outstanding + 1 := incU32_eq hmore.2 hq
      rw [if_pos hmore, hall r.sent (Nat.le_refl _) hlt, hs, ho]
      have hok' : SendOk { r with sent := r.sent + 1, outstanding := r.outstanding + 1 } c :=
        ⟨hit, hq, by show r.outstanding + 1 + c = r.sent + 1; omega, hlt⟩
      exact ih hok' (by show r.qdepth ≤ r.outstanding + 1 + n; omega)
        fun i h1 h2 => hall i (Nat.le_of_succ_le h1) h2
    · have hfull : sendTarget r c = r.sent := by simp only [sendTarget] at hsent ⊢; omega
      have hout : r.sent - c = r.outstanding := by omega
      rw [if_neg hmore, hfull, hout]

theorem postSends_error {env : BenchEnv} {c : Nat} : ∀ {n : Nat} {r : Run}, SendOk r c →
    r.qdepth ≤ r.outstanding + n →
    (∃ i, r.sent ≤ i ∧ i < sendTarget r c ∧ env.send i ≠ none) →
    ∃ e, postSends env n r = .error e := by
  intro n
  induction n with
  | zero =>
    rintro r hok hn ⟨i, h1, h2, -⟩
    obtain ⟨hit, hq, hbal, hsent⟩ := hok
    simp only [sendTarget] at hsent h2
    omega
  | succ n ih =>
    rintro r hok hn ⟨i, h1, h2, hne⟩
    obtain ⟨hit, hq, hbal, hsent⟩ := hok
    have hmore : r.sent < r.iterations ∧ r.outstanding < r.qdepth := by
      simp only [sendTarget] at h2; omega
    have hs : incU32 r.sent = r.sent + 1 := incU32_eq hmore.1 hit
    have ho : incU32 r.outstanding = r.outstanding + 1 := incU32_eq hmore.2 hq
    rw [postSends, if_pos hmore]
    cases hp : env.send r.sent with
    | some e => exact ⟨e, rfl⟩
    | none =>
      have hi : i ≠ r.sent := by rintro rfl; exact hne hp
      have hlt : r.sent < sendTarget r c := by simp only [sendTarget]; omega
      have hok' : SendOk { r with sent := r.sent + 1, outstanding := r.outstanding + 1 } c :=
        ⟨hit, hq, by show r.outstanding + 1 + c = r.sent + 1; omega, hlt⟩
      show ∃ e, postSends env n
        { r with sent := incU32 r.sent, outstanding := incU32 r.outstanding } = .error e
      rw [hs, ho]
      exact ih hok' (by show r.qdepth ≤ r.outstanding + 1 + n; omega)
        ⟨i, by show r.sent + 1 ≤ i; omega, h2, hne⟩

/-! ## Iterations that go on -/

/-- The successful completions among the first `j` polls. -/
def BenchEnv.successes (env : BenchEnv) (j : Nat) : Nat := Nat.count (env.poll · = .cqe true) j

/-- Iteration `j` of the outer loop of the run that starts as `r` goes on: it is not done, its
sends are posted, and the poll has a success, after which the receive is posted, or a negative
result. -/
structure GoesOn (env : BenchEnv) (r : Run) (j : Nat) : Prop where
  unfinished : env.successes j < r.iterations
  sends : ∀ i, i < sendTarget r (env.successes j) → env.send i = none
  poll : env.poll j = .cqe true ∨ ∃ e, env.poll j = .error e
  replenish : r.kind = .streaming → env.poll j = .cqe true →
    benchPrePost r + env.successes j < r.iterations → env.replenish (env.successes j) = none

/-- The run gets to its outer loop. -/
def PrePosted (env : BenchEnv) (r : Run) : Prop := ∀ i, i < benchPrePost r → env.prePost i = none

/-- Every iteration of the outer loop goes on: the run never leaves it. -/
def Stuck (env : BenchEnv) (r : Run) : Prop := PrePosted env r ∧ ∀ j, GoesOn env r j

/-- The run gets to the end of its outer loop with all iterations completed. -/
def Completes (env : BenchEnv) (r : Run) : Prop :=
  PrePosted env r ∧
    ∃ n, env.successes n = r.iterations ∧ ∀ j, j < n → GoesOn env r j

/-- A run as `streamRun` and `sweepRun` make it. -/
structure BenchRun (r : Run) : Prop where
  kind : r.kind ≠ .sustained
  qdepth : 0 < r.qdepth ∧ r.qdepth < 2 ^ 32
  iterations : r.iterations < 2 ^ 32
  zero : r.sent = 0 ∧ r.completed = 0 ∧ r.recvPosted = 0 ∧ r.outstanding = 0

theorem benchPrePost_le {r : Run} (h : r.kind ≠ .sustained) : benchPrePost r ≤ r.iterations := by
  rw [benchPrePost, prePostCount]
  split
  · rename_i hk; exact absurd hk h
  · split <;> omega

theorem benchRun_stream (p : StreamParams) : BenchRun (streamRun p) := by
  have hq := p.queueDepth.toNat_lt
  have hne : p.queueDepth ≠ 0 → p.queueDepth.toNat ≠ 0 := fun h h0 =>
    h (UInt32.toNat_inj.mp h0)
  refine ⟨fun h => (by cases h), ?_, p.iterations.toNat_lt, rfl, rfl, rfl, rfl⟩
  simp only [streamRun]
  split
  · omega
  · rename_i hd
    have := hne hd
    omega

theorem qdepth_sweep {p : SweepParams} (h : sweepRejected p = false) {point : Nat}
    (hp : point < nrPoints p) :
    0 < (sweepRun p point).qdepth ∧ (sweepRun p point).qdepth ≤ 64 := by
  simp only [sweepRejected, Bool.or_eq_false_iff, decide_eq_false_iff_not] at h
  obtain ⟨⟨⟨⟨hmin, hmax⟩, hle⟩, hstep⟩, -⟩ := h
  have hmin' : 1 ≤ p.minQdepth.toNat := Nat.not_lt.mp fun h => hmin (UInt32.lt_iff_toNat_lt.mpr h)
  have hle' : p.minQdepth.toNat ≤ p.maxQdepth.toNat :=
    Nat.not_lt.mp fun h => hle (UInt32.lt_iff_toNat_lt.mpr h)
  have hmax' : p.maxQdepth.toNat ≤ 64 := Nat.not_lt.mp fun h => hmax (UInt32.lt_iff_toNat_lt.mpr h)
  have hpoint : point ≤ (p.maxQdepth.toNat - p.minQdepth.toNat) / p.step.toNat := by
    simp only [nrPoints] at hp
    split at hp <;> omega
  have hmul : point * p.step.toNat ≤ p.maxQdepth.toNat - p.minQdepth.toNat :=
    (Nat.mul_le_mul_right _ hpoint).trans (Nat.div_mul_le_self _ _)
  have hmod : (p.minQdepth.toNat + point * p.step.toNat) % 2 ^ 32 =
      p.minQdepth.toNat + point * p.step.toNat := Nat.mod_eq_of_lt (by omega)
  simp only [sweepRun, hmod]
  omega

theorem benchRun_sweep {p : SweepParams} (h : sweepRejected p = false) (point : Nat)
    (hp : point < nrPoints p) : BenchRun (sweepRun p point) := by
  obtain ⟨hpos, hle⟩ := qdepth_sweep h hp
  exact ⟨fun h => (by cases h), ⟨hpos, by omega⟩, p.iterations.toNat_lt, rfl, rfl, rfl, rfl⟩

/-- The locals before iteration `j` of the outer loop, while every iteration so far has gone on. -/
structure BenchAt (env : BenchEnv) (r₀ : Run) (j : Nat) (r : Run) : Prop where
  kind : r.kind = r₀.kind
  qdepth : r.qdepth = r₀.qdepth
  iterations : r.iterations = r₀.iterations
  completed : r.completed = env.successes j
  done : env.successes j ≤ r₀.iterations
  balance : r.outstanding + env.successes j = r.sent
  sent : r.sent ≤ sendTarget r₀ (env.successes j)
  sends : ∀ i, i < r.sent → env.send i = none
  posted : r₀.kind = .streaming →
    r.recvPosted = min r₀.iterations (benchPrePost r₀ + env.successes j)

section Run

variable {env : BenchEnv} {r₀ r : Run} {j : Nat}

theorem BenchAt.sendOk (h : BenchAt env r₀ j r) (hr : BenchRun r₀) :
    SendOk r (env.successes j) where
  iterations := by rw [h.iterations]; exact hr.iterations
  qdepth := by rw [h.qdepth]; exact hr.qdepth.2
  balance := h.balance
  sent := by rw [sendTarget, h.iterations, h.qdepth]; exact h.sent

theorem BenchAt.target (h : BenchAt env r₀ j r) (c : Nat) : sendTarget r c = sendTarget r₀ c := by
  rw [sendTarget, h.iterations, h.qdepth]; rfl

theorem successes_succ (env : BenchEnv) (j : Nat) : env.successes (j + 1) =
    env.successes j + if env.poll j = .cqe true then 1 else 0 := Nat.count_succ _ _

theorem BenchAt.unfinished (h : BenchAt env r₀ j r) :
    r.completed < r.iterations ↔ env.successes j < r₀.iterations := by
  rw [h.completed, h.iterations]

/-- The sends of an iteration that goes on. -/
theorem BenchAt.postSends (hr : BenchRun r₀) (h : BenchAt env r₀ j r) (hg : GoesOn env r₀ j) :
    postSends env (r.qdepth - r.outstanding) r = .ok { r with
      sent := sendTarget r₀ (env.successes j)
      outstanding := sendTarget r₀ (env.successes j) - env.successes j } := by
  have hq := hr.qdepth
  have htarget := h.target (env.successes j)
  have hsends := postSends_ok (n := r.qdepth - r.outstanding) (h.sendOk hr) (by omega)
    fun i _ hi => hg.sends i (by rw [← htarget]; exact hi)
  rwa [htarget] at hsends

/-- The locals after a success of the poll, whatever the two for the receives have become. -/
theorem BenchAt.polled (hr : BenchRun r₀) (h : BenchAt env r₀ j r) (hg : GoesOn env r₀ j)
    (hp : env.poll j = .cqe true) (recvDrained recvPosted : Nat)
    (hpost : r₀.kind = .streaming →
      recvPosted = min r₀.iterations (benchPrePost r₀ + (env.successes j + 1))) :
    BenchAt env r₀ (j + 1) { r with
      sent := sendTarget r₀ (env.successes j)
      outstanding := decU32 (sendTarget r₀ (env.successes j) - env.successes j)
      completed := incU32 r.completed, recvDrained := recvDrained, recvPosted := recvPosted } := by
  have hunf := hg.unfinished
  have hit := hr.iterations
  have hq := hr.qdepth
  have hmore : env.successes j < sendTarget r₀ (env.successes j) := by
    simp only [sendTarget]; omega
  have hsucc : env.successes (j + 1) = env.successes j + 1 := by
    rw [successes_succ, if_pos hp]
  have hc : incU32 r.completed = env.successes j + 1 := by
    rw [h.completed]; exact incU32_eq hunf hit
  have ho : decU32 (sendTarget r₀ (env.successes j) - env.successes j) =
      sendTarget r₀ (env.successes j) - env.successes j - 1 :=
    decU32_eq (by omega) (by simp only [sendTarget]; omega)
  have hmono : sendTarget r₀ (env.successes j) ≤ sendTarget r₀ (env.successes j + 1) := by
    simp only [sendTarget]; omega
  exact
    { kind := h.kind, qdepth := h.qdepth, iterations := h.iterations
      completed := by rw [hsucc]; exact hc
      done := by rw [hsucc]; exact hunf
      balance := by
        rw [hsucc]
        show decU32 _ + _ = sendTarget r₀ (env.successes j)
        omega
      sent := by rw [hsucc]; exact hmono
      sends := hg.sends
      posted := by rw [hsucc]; exact hpost }

/-- The locals after an empty poll or one that fails. -/
theorem BenchAt.unpolled (h : BenchAt env r₀ j r) (hg : GoesOn env r₀ j)
    (hp : env.poll j ≠ .cqe true) :
    BenchAt env r₀ (j + 1) { r with
      sent := sendTarget r₀ (env.successes j)
      outstanding := sendTarget r₀ (env.successes j) - env.successes j } := by
  have hunf := hg.unfinished
  have hmore : env.successes j ≤ sendTarget r₀ (env.successes j) := by
    simp only [sendTarget]; omega
  have hsame : env.successes (j + 1) = env.successes j := by
    rw [successes_succ, if_neg hp, Nat.add_zero]
  exact
    { kind := h.kind, qdepth := h.qdepth, iterations := h.iterations
      completed := by rw [hsame]; exact h.completed
      done := by rw [hsame]; exact h.done
      balance := by
        rw [hsame]
        show sendTarget r₀ _ - _ + _ = sendTarget r₀ (env.successes j)
        omega
      sent := by rw [hsame]
      sends := hg.sends
      posted := by rw [hsame]; exact h.posted }

/-- An iteration that goes on keeps the invariant. -/
theorem BenchAt.goes (hr : BenchRun r₀) (h : BenchAt env r₀ j r) (hg : GoesOn env r₀ j) :
    ∃ r', benchBody env j r = .inl r' ∧ BenchAt env r₀ (j + 1) r' := by
  have hunf := hg.unfinished
  have hit := hr.iterations
  rw [benchBody, if_pos (h.unfinished.mpr hunf), h.postSends hr hg]
  rcases hg.poll with hp | ⟨e, hp⟩
  · simp only [hp, onCompletion]
    by_cases hrep : r.recvPosted < r.iterations
    · rw [if_pos hrep]
      have hinc : incU32 r.recvPosted = r.recvPosted + 1 :=
        incU32_eq hrep (by rw [h.iterations]; exact hit)
      rw [h.iterations] at hrep
      cases hanswer : env.replenish r.completed with
      | none =>
        refine ⟨_, rfl, h.polled hr hg hp _ _ fun hk => ?_⟩
        have := h.posted hk
        rw [hinc]; omega
      | some e =>
        -- The streaming run would have returned the error.
        have hsweep : ¬ r₀.kind = .streaming := by
          intro hk
          have hpost := h.posted hk
          have := hg.replenish hk hp (by omega)
          rw [h.completed, this] at hanswer
          cases hanswer
        refine ⟨_, ?_, h.polled hr hg hp (drainAll (env.drained r.completed) r.recvDrained)
          r.recvPosted fun hk => absurd hk hsweep⟩
        cases hkind : r.kind with
        | sweep p point => rfl
        | sustained => exact absurd (h.kind ▸ hkind) hr.kind
        | streaming => exact absurd (h.kind ▸ hkind) hsweep
    · rw [if_neg hrep]
      rw [h.iterations] at hrep
      refine ⟨_, rfl, h.polled hr hg hp _ _ fun hk => ?_⟩
      have := h.posted hk
      omega
  · simp only [hp]
    exact ⟨_, rfl, h.unpolled hg (by rw [hp]; intro h; cases h)⟩

/-- An iteration that does not go on, before all are completed, returns an error. -/
theorem BenchAt.fails (hr : BenchRun r₀) (h : BenchAt env r₀ j r) (hg : ¬ GoesOn env r₀ j)
    (hunf : env.successes j < r₀.iterations) : ∃ e, benchBody env j r = .inr (.error e) := by
  have htarget := h.target (env.successes j)
  rw [benchBody, if_pos (h.unfinished.mpr hunf)]
  by_cases hsend : ∀ i, r.sent ≤ i → i < sendTarget r (env.successes j) → env.send i = none
  · rw [postSends_ok (n := r.qdepth - r.outstanding) (h.sendOk hr) (by omega) hsend]
    have hsends : ∀ i, i < sendTarget r₀ (env.successes j) → env.send i = none := by
      intro i hi
      by_cases hlt : i < r.sent
      · exact h.sends i hlt
      · exact hsend i (Nat.not_lt.mp hlt) (by rw [htarget]; exact hi)
    cases hp : env.poll j with
    | timeout => exact ⟨_, rfl⟩
    | error e =>
      exact absurd ⟨hunf, hsends, .inr ⟨e, hp⟩, fun _ hs => by rw [hp] at hs; cases hs⟩ hg
    | cqe ok =>
      cases ok with
      | false => exact ⟨_, rfl⟩
      | true =>
        -- it is the receive that cannot be posted
        have hrep : ¬ (r₀.kind = .streaming → env.poll j = .cqe true →
            benchPrePost r₀ + env.successes j < r₀.iterations →
            env.replenish (env.successes j) = none) := fun hrep =>
          hg ⟨hunf, hsends, .inl hp, hrep⟩
        simp only [Classical.not_imp] at hrep
        obtain ⟨hk, -, hlt, hne⟩ := hrep
        obtain ⟨e, he⟩ := Option.ne_none_iff_exists'.mp hne
        have hpost := h.posted hk
        have hmore : r.recvPosted < r.iterations := by rw [h.iterations]; omega
        simp only [onCompletion, hmore, if_true, h.completed, he, h.kind, hk]
        exact ⟨_, rfl⟩
  · simp only [not_forall] at hsend
    obtain ⟨i, h1, h2, hne⟩ := hsend
    obtain ⟨e, he⟩ := postSends_error (n := r.qdepth - r.outstanding) (h.sendOk hr) (by omega)
      ⟨i, h1, h2, hne⟩
    rw [he]
    exact ⟨_, rfl⟩

/-- With all iterations completed the loop ends. -/
theorem BenchAt.ends (h : BenchAt env r₀ j r) (hunf : ¬ env.successes j < r₀.iterations) :
    benchBody env j r = .inr (.ok r) ∧ r.completed = r₀.iterations := by
  have := h.done
  exact ⟨by rw [benchBody, if_neg fun hlt => hunf (h.unfinished.mp hlt)],
    by rw [h.completed]; omega⟩

/-- The locals at the first iteration. -/
theorem benchAt_zero (hr : BenchRun r₀) :
    BenchAt env r₀ 0 { r₀ with recvPosted := benchPrePost r₀ } := by
  obtain ⟨hsent, hcompleted, -, hout⟩ := hr.zero
  have hle := benchPrePost_le hr.kind
  have hzero : env.successes 0 = 0 := Nat.count_zero _
  refine ⟨rfl, rfl, rfl, ?_, ?_, ?_, ?_, ?_, fun _ => ?_⟩
  · rw [hzero]; exact hcompleted
  · rw [hzero]; exact Nat.zero_le _
  · rw [hzero]; show r₀.outstanding + 0 = r₀.sent; omega
  · show r₀.sent ≤ _; omega
  · intro i hi
    have : i < r₀.sent := hi
    omega
  · show benchPrePost r₀ = _
    rw [hzero]; omega

theorem recvDrain_completed : ∀ {n i : Nat} {r : Run}, (recvDrain env n i r).completed =
    r.completed := by
  intro n
  induction n with
  | zero => intro i r; rfl
  | succ n ih =>
    intro i r
    rw [recvDrain]
    split
    · split
      · exact ih
      · rfl
    · rfl

theorem prePosts_cases (env : BenchEnv) (hr : BenchRun r₀) :
    (PrePosted env r₀ ∧
      prePosts env (benchPrePost r₀) r₀ = .ok { r₀ with recvPosted := benchPrePost r₀ }) ∨
    (¬ PrePosted env r₀ ∧ ∃ e, prePosts env (benchPrePost r₀) r₀ = .error e) := by
  have hle := benchPrePost_le hr.kind
  have hit := hr.iterations
  have hzero := hr.zero.2.2.1
  by_cases hp : PrePosted env r₀
  · refine .inl ⟨hp, ?_⟩
    rw [prePosts_ok (by omega) fun i _ hi => hp i (by omega), hzero, Nat.zero_add]
  · refine .inr ⟨hp, prePosts_error (by omega) ?_⟩
    simp only [PrePosted, not_forall] at hp
    obtain ⟨i, hi, hne⟩ := hp
    exact ⟨i, by omega, by omega, hne⟩

/-- How a run can go: it never leaves its outer loop, it fails, or it completes. -/
theorem benchRun_cases (env : BenchEnv) (hr : BenchRun r₀) :
    (Stuck env r₀ ∧ ∀ fuel, benchRun env fuel r₀ = none) ∨
    (¬ Completes env r₀ ∧ ¬ Stuck env r₀ ∧ ∃ fuel e, benchRun env fuel r₀ = some (.error e)) ∨
    (Completes env r₀ ∧ ¬ Stuck env r₀ ∧
      ∃ fuel r, benchRun env fuel r₀ = some (.ok r) ∧ r.completed = r₀.iterations) := by
  rcases prePosts_cases env hr with ⟨hpre, hp⟩ | ⟨hpre, e, hp⟩
  · have hgoes : ∀ j r, BenchAt env r₀ j r → GoesOn env r₀ j →
        ∃ r', benchBody env j r = .inl r' ∧ BenchAt env r₀ (j + 1) r' := fun _ _ h => h.goes hr
    rcases Loop.run_cases hgoes (benchAt_zero hr) with
      ⟨hall, hnone⟩ | ⟨n, r, hn, hbefore, hat, hrun⟩
    · exact .inl ⟨⟨hpre, hall⟩, fun fuel => by simp only [benchRun, hp, hnone, Option.map_none]⟩
    · have hstuck : ¬ Stuck env r₀ := fun hs => hn (hs.2 n)
      by_cases hunf : env.successes n < r₀.iterations
      · obtain ⟨e, he⟩ := hat.fails hr hn hunf
        refine .inr (.inl ⟨?_, hstuck, n + 1, e, ?_⟩)
        · rintro ⟨-, m, hm, hgoes⟩
          rcases Nat.lt_or_ge n m with hlt | hge
          · exact hn (hgoes n hlt)
          · have : env.successes m ≤ env.successes n := Nat.count_monotone _ hge
            omega
        · simp only [benchRun, hp, hrun _ he, Option.map_some]
      · obtain ⟨hb, hc⟩ := hat.ends hunf
        have hdone := hat.done
        refine .inr (.inr ⟨⟨hpre, n, by omega, hbefore⟩, hstuck, n + 1,
          recvDrain env (r.completed - r.recvDrained) 0 r, ?_, ?_⟩)
        · simp only [benchRun, hp, hrun _ hb, Option.map_some]
        · rw [recvDrain_completed, hc]
  · exact .inr (.inl ⟨fun hc => hpre hc.1, fun hs => hpre hs.1, 0, e, by rw [benchRun, hp]⟩)

theorem benchRun_mono {fuel fuel' : Nat} {res : Except Errno Run}
    (h : benchRun env fuel r = some res) (hle : fuel ≤ fuel') :
    benchRun env fuel' r = some res := by
  rw [benchRun] at h ⊢
  cases hp : prePosts env (benchPrePost r) r with
  | error e => rw [hp] at h; exact h
  | ok r' =>
    rw [hp] at h
    obtain ⟨res', hrun, hres⟩ := Option.map_eq_some_iff.mp h
    show (Loop.run (benchBody env) fuel' 0 r').map _ = some res
    rw [Loop.run_mono hrun hle, Option.map_some]
    exact congrArg some hres

end Run

/-! ## Termination -/

/-- `benchmark_streaming` returns, with an error unless it completed all iterations. -/
def StreamReturns (env : BenchEnv) (p : StreamParams) : Prop :=
  ∃ fuel res, benchmarkStreaming env p fuel = some res ∧
    ∀ r, res = .ok r → r.completed = p.iterations.toNat

/-- `dmaplane_qdepth_sweep` returns, with an error unless every point completed all iterations. -/
def SweepReturns (env : Nat → BenchEnv) (p : SweepParams) : Prop :=
  ∃ fuel res, qdepthSweep env p fuel = some res ∧
    ∀ rs, res = .ok rs → rs.length = nrPoints p ∧ ∀ r ∈ rs, r.completed = p.iterations.toNat

theorem streamReturns_iff (env : BenchEnv) (p : StreamParams) :
    StreamReturns env p ↔ ¬ Stuck env (streamRun p) := by
  rcases benchRun_cases env (benchRun_stream p) with
    ⟨hs, hnone⟩ | ⟨-, hs, fuel, e, he⟩ | ⟨-, hs, fuel, r, hok, hc⟩
  · refine iff_of_false ?_ (not_not.mpr hs)
    rintro ⟨fuel, res, hrun, -⟩
    rw [benchmarkStreaming, hnone] at hrun
    cases hrun
  · exact iff_of_true ⟨fuel, _, he, fun r h => by cases h⟩ hs
  · exact iff_of_true ⟨fuel, _, hok, fun r h => by cases h; exact hc⟩ hs

section Sweep

variable (env : Nat → BenchEnv) {p : SweepParams}

theorem sweepPoints_mono {fuel fuel' : Nat} (hle : fuel ≤ fuel') :
    ∀ {n point : Nat} {res : Except Errno (List Run)}, sweepPoints env p fuel n point = some res →
      sweepPoints env p fuel' n point = some res := by
  intro n
  induction n with
  | zero => intro point res h; exact h
  | succ n ih =>
    intro point res h
    rw [sweepPoints] at h ⊢
    split at h
    · cases h
    · rename_i e he; rw [benchRun_mono he hle]; exact h
    · rename_i r hr
      obtain ⟨res', hrest, hres⟩ := Option.map_eq_some_iff.mp h
      rw [benchRun_mono hr hle]
      simp only [ih hrest, Option.map_some]
      exact congrArg some hres

/-- From `point` on, point by point: the sweep returns unless it gets to a stuck one. -/
theorem sweepPoints_iff (hp : sweepRejected p = false) : ∀ n point : Nat,
    point + n ≤ nrPoints p →
    ((∃ fuel res, sweepPoints env p fuel n point = some res ∧ ∀ rs, res = .ok rs →
        rs.length = n ∧ ∀ r ∈ rs, r.completed = p.iterations.toNat) ↔
      ∀ k, k < n → (∀ q, q < k → Completes (env (point + q)) (sweepRun p (point + q))) →
        ¬ Stuck (env (point + k)) (sweepRun p (point + k))) := by
  intro n
  induction n with
  | zero =>
    intro point _
    refine iff_of_true ⟨0, _, rfl, fun rs h => ?_⟩ fun k hk => absurd hk (Nat.not_lt_zero k)
    cases h
    exact ⟨rfl, fun r hr => absurd hr List.not_mem_nil⟩
  | succ n ih =>
    intro point hle
    rcases benchRun_cases (env point) (benchRun_sweep hp point (by omega)) with
      ⟨hs, hnone⟩ | ⟨hc, hs, fuel, e, he⟩ | ⟨hc, hs, fuel, r, hok, hdone⟩
    · refine iff_of_false ?_ fun h => h 0 (Nat.succ_pos n) (fun q hq => by omega) hs
      rintro ⟨fuel, res, hrun, -⟩
      rw [sweepPoints, hnone] at hrun
      cases hrun
    · refine iff_of_true ⟨fuel, .error e, by rw [sweepPoints, he], fun rs h => by cases h⟩ ?_
      intro k hk hall
      cases k with
      | zero => exact hs
      | succ k => exact absurd (hall 0 (Nat.succ_pos k)) hc
    · -- the point completes: the sweep is what comes after it
      have hshift : ∀ k, point + (k + 1) = point + 1 + k := fun k => by omega
      have hrest := ih (point + 1) (by omega)
      constructor
      · rintro ⟨fuel', res, hrun, hres⟩ k hk hall
        cases k with
        | zero => exact hs
        | succ k =>
          rw [hshift]
          refine hrest.mp ?_ k (by omega) fun q hq => ?_
          · have hmax := sweepPoints_mono env (Nat.le_max_right fuel fuel') hrun
            rw [sweepPoints, benchRun_mono hok (Nat.le_max_left fuel fuel')] at hmax
            obtain ⟨res', hrun', heq⟩ := Option.map_eq_some_iff.mp hmax
            refine ⟨_, res', hrun', fun rs h => ?_⟩
            subst h
            obtain ⟨hlen, hmem⟩ := hres (r :: rs) heq.symm
            exact ⟨Nat.succ.inj hlen, fun r' hr' => hmem r' (List.mem_cons_of_mem _ hr')⟩
          · rw [← hshift]; exact hall (q + 1) (by omega)
      · intro hall
        obtain ⟨fuel', res, hrun, hres⟩ := hrest.mpr fun k hk hbefore => by
          rw [← hshift]
          refine hall (k + 1) (by omega) fun q hq => ?_
          cases q with
          | zero => exact hc
          | succ q => rw [hshift]; exact hbefore q (by omega)
        have hok' := benchRun_mono hok (Nat.le_max_left fuel fuel')
        have hrun' := sweepPoints_mono env (Nat.le_max_right fuel fuel') hrun
        cases res with
        | error e =>
          exact ⟨max fuel fuel', .error e, by rw [sweepPoints, hok', hrun']; rfl,
            fun rs h => by cases h⟩
        | ok rs' =>
          refine ⟨max fuel fuel', .ok (r :: rs'), by rw [sweepPoints, hok', hrun']; rfl, ?_⟩
          intro rs h
          cases h
          obtain ⟨hlen, hmem⟩ := hres rs' rfl
          refine ⟨by rw [List.length_cons, hlen], fun r' hr' => ?_⟩
          rcases List.mem_cons.mp hr' with rfl | hr'
          · exact hdone
          · exact hmem r' hr'

end Sweep

/-- **When the pipelined benchmarks end.** On an accepted request, whatever the verbs layer
answers: the streaming run returns, with an error unless it completed all iterations, exactly if
it is not stuck; the sweep returns so exactly if no point it gets to is stuck. -/
theorem bench_returns_iff (env : BenchEnv) (p : StreamParams) (envs : Nat → BenchEnv)
    {ps : SweepParams} (hps : sweepRejected ps = false) :
    (StreamReturns env p ↔ ¬ Stuck env (streamRun p)) ∧
      (SweepReturns envs ps ↔ ∀ point, point < nrPoints ps →
        (∀ q, q < point → Completes (envs q) (sweepRun ps q)) →
        ¬ Stuck (envs point) (sweepRun ps point)) := by
  refine ⟨streamReturns_iff env p, ?_⟩
  have h := sweepPoints_iff envs hps (nrPoints ps) 0 (by omega)
  simp only [Nat.zero_add] at h
  exact h

/-- The verbs layer posts whatever it is given, and its poll fails from the first time on. -/
def pollFails : BenchEnv :=
  { prePost := fun _ => none, send := fun _ => none, poll := fun _ => .error .EINVAL
    drained := fun _ => [], replenish := fun _ => none, tail := fun _ => .timeout }

/-- All sends complete. -/
def pollSucceeds : BenchEnv := { pollFails with poll := fun _ => .cqe true }

theorem stuck_pollFails {r : Run} (h : 0 < r.iterations) : Stuck pollFails r := by
  have hzero : ∀ j, pollFails.successes j = 0 := by
    intro j
    induction j with
    | zero => exact Nat.count_zero _
    | succ j ih => rw [successes_succ, ih]; rfl
  refine ⟨fun i _ => rfl, fun j => ⟨by rw [hzero]; exact h, fun i _ => rfl, .inr ⟨_, rfl⟩, ?_⟩⟩
  intro _ hp
  cases hp

theorem bench_returns_two : StreamReturns pollSucceeds ⟨1, 2⟩ ∧
    SweepReturns (fun _ => pollSucceeds) ⟨1, 2, 1, 2⟩ := by
  have hns : ∀ r : Run, ¬ Stuck pollSucceeds r := by
    rintro r ⟨-, hall⟩
    have hcount : ∀ j, pollSucceeds.successes j = j := by
      intro j
      induction j with
      | zero => exact Nat.count_zero _
      | succ j ih => rw [successes_succ, ih]; rfl
    have := (hall r.iterations).unfinished
    rw [hcount] at this
    exact Nat.lt_irrefl _ this
  obtain ⟨hstream, hsweep⟩ := bench_returns_iff pollSucceeds ⟨1, 2⟩ (fun _ => pollSucceeds)
    (show sweepRejected ⟨1, 2, 1, 2⟩ = false by decide)
  exact ⟨hstream.mpr (hns _), hsweep.mpr fun _ _ _ => hns _⟩

/-- Neither call returns. -/
theorem bench_never_returns :
    (∀ fuel, benchmarkStreaming pollFails ⟨16, 1000⟩ fuel = none) ∧
      sweepRejected ⟨1, 32, 1, 1000⟩ = false ∧
      ∀ fuel, qdepthSweep (fun _ => pollFails) ⟨1, 32, 1, 1000⟩ fuel = none := by
  have hnone : ∀ {r : Run}, BenchRun r → 0 < r.iterations →
      ∀ fuel, benchRun pollFails fuel r = none := by
    intro r hr hit
    rcases benchRun_cases pollFails hr with ⟨-, h⟩ | ⟨-, hs, -⟩ | ⟨-, hs, -⟩
    · exact h
    · exact absurd (stuck_pollFails hit) hs
    · exact absurd (stuck_pollFails hit) hs
  refine ⟨hnone (benchRun_stream _) (by decide), by decide, fun fuel => ?_⟩
  have hpoints : nrPoints ⟨1, 32, 1, 1000⟩ = 31 + 1 := by decide
  have hfirst := hnone (benchRun_sweep (p := ⟨1, 32, 1, 1000⟩) rfl 0 (by decide)) (by decide) fuel
  rw [qdepthSweep, hpoints, sweepPoints, hfirst]

end Dmaplane
