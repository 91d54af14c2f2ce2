import Rumble.Lib.Bucket
import Mathlib.Algebra.Order.Ring.Rat

/-!
# The throttle of file transfers

`rumble-desktop/src/file_transfer_relay.rs`: `TokenBucket`, which every upload and every fetch asks
after each chunk how long to sleep before the next one. Times and waits are in seconds and exact, as
the balance is.
-/

namespace Rumble.Desktop

open Rumble.Lib

/-- The balance is in bytes; below zero it is debt to sleep off. -/
structure TokenBucket where
  tokens : Rat
  lastRefill : Rat
  deriving DecidableEq

namespace TokenBucket

/-- `TokenBucket::new`, at a time. -/
def new (now : Rat) : TokenBucket :=
  { tokens := 0, lastRefill := now }

/-- The bucket after a chunk, and how long the caller sleeps before the next. A limit of 0 means
unlimited. -/
def consume (bucket : TokenBucket) (bytes limitBps : Nat) (now : Rat) : TokenBucket × Rat :=
  if limitBps = 0 then ({ tokens := 0, lastRefill := now }, 0)
  else
    let limit : Rat := limitBps
    -- `duration_since` is zero for a time that lies ahead.
    let elapsed := max 0 (now - bucket.lastRefill)
    let tokens := min (bucket.tokens + elapsed * limit) limit - bytes
    ({ tokens, lastRefill := now }, if 0 ≤ tokens then 0 else -tokens / limit)

end TokenBucket

/-- A chunk, and when it had been moved. -/
structure Chunk where
  bytes : Nat
  time : Rat
  deriving DecidableEq

def bytesMoved (chunks : List Chunk) : Nat := (chunks.map Chunk.bytes).sum

namespace TokenBucket

/-- The bucket after chunks under one limit. -/
def after (limitBps : Nat) (bucket : TokenBucket) (chunks : List Chunk) : TokenBucket :=
  chunks.foldl (fun bucket chunk => (bucket.consume chunk.bytes limitBps chunk.time).1) bucket

/-- Each chunk is moved when the sleep after the one before is over, the first from `ready` on. -/
def Honoured (limitBps : Nat) : TokenBucket → Rat → List Chunk → Prop
  | _, _, [] => True
  | bucket, ready, chunk :: chunks =>
    ready ≤ chunk.time ∧
      Honoured limitBps (bucket.consume chunk.bytes limitBps chunk.time).1
        (chunk.time + (bucket.consume chunk.bytes limitBps chunk.time).2) chunks

/-! ## As a bucket with the limit for a rate and a capacity -/

def toBucket (bucket : TokenBucket) : Bucket Rat :=
  { balance := bucket.tokens, filled := bucket.lastRefill }

end TokenBucket

def Chunk.toSpending (chunk : Chunk) : Spending Rat :=
  { amount := chunk.bytes, time := chunk.time }

theorem totalAmount_toSpending (chunks : List Chunk) :
    totalAmount (chunks.map Chunk.toSpending) = (bytesMoved chunks : Rat) := by
  induction chunks with
  | nil => simp [bytesMoved]
  | cons chunk chunks ih => simp_all [bytesMoved, Chunk.toSpending]

namespace TokenBucket

variable {limitBps : Nat} {bucket : TokenBucket} {chunk : Chunk} {chunks : List Chunk}

theorem toBucket_consume (hl : 0 < limitBps) (h : bucket.lastRefill ≤ chunk.time) :
    (bucket.consume chunk.bytes limitBps chunk.time).1.toBucket =
      bucket.toBucket.spend (limitBps : Rat) limitBps chunk.toSpending := by
  have helapsed : max 0 (chunk.time - bucket.lastRefill) = chunk.time - bucket.lastRefill :=
    max_eq_right (sub_nonneg.mpr h)
  simp only [consume, if_neg hl.ne', helapsed, toBucket, Bucket.spend, Bucket.available,
    Chunk.toSpending, mul_comm]

theorem lastRefill_consume (bucket : TokenBucket) (bytes : Nat) (now : Rat) :
    (bucket.consume bytes limitBps now).1.lastRefill = now := by
  unfold consume
  split <;> rfl

/-- The sleep is as long as it takes to pay off the debt. -/
theorem tokens_add_wait (hl : 0 < limitBps) (bucket : TokenBucket) (bytes : Nat) (now : Rat) :
    0 ≤ (bucket.consume bytes limitBps now).2 ∧
      0 ≤ (bucket.consume bytes limitBps now).1.tokens +
        limitBps * (bucket.consume bytes limitBps now).2 := by
  have hlimit : (0 : Rat) < limitBps := by exact_mod_cast hl
  simp only [consume, if_neg hl.ne']
  split
  · next htokens => simpa using htokens
  · next hdebt =>
    refine ⟨div_nonneg (by linarith) hlimit.le, ?_⟩
    rw [mul_div_cancel₀ _ hlimit.ne']
    linarith

/-- `ready` is late enough for the debt to be paid off. -/
structure Ready (limitBps : Nat) (bucket : TokenBucket) (ready : Rat) : Prop where
  lastRefill_le : bucket.lastRefill ≤ ready
  paid : 0 ≤ bucket.tokens + limitBps * (ready - bucket.lastRefill)

theorem ready_new (t0 : Rat) : (new t0).Ready limitBps t0 :=
  ⟨le_rfl, by simp [new]⟩

theorem ready_consume (hl : 0 < limitBps) (bucket : TokenBucket) (bytes : Nat) (now : Rat) :
    (bucket.consume bytes limitBps now).1.Ready limitBps
      (now + (bucket.consume bytes limitBps now).2) := by
  obtain ⟨hwait, hpaid⟩ := tokens_add_wait hl bucket bytes now
  refine ⟨?_, ?_⟩
  · rw [lastRefill_consume]
    linarith
  · rw [lastRefill_consume, add_sub_cancel_left]
    exact hpaid

/-- A chunk that was moved in time finds no debt. -/
theorem Ready.available_nonneg {ready : Rat} (h : bucket.Ready limitBps ready)
    (htime : ready ≤ chunk.time) :
    0 ≤ bucket.toBucket.available (limitBps : Rat) limitBps chunk.time := by
  have hlimit : (0 : Rat) ≤ limitBps := by exact_mod_cast Nat.zero_le limitBps
  have hgrown : (limitBps : Rat) * (ready - bucket.lastRefill) ≤
      limitBps * (chunk.time - bucket.lastRefill) :=
    mul_le_mul_of_nonneg_left (by linarith) hlimit
  have hpaid := h.paid
  exact le_min (by simp only [toBucket]; linarith) hlimit

/-- Who honours the sleeps is paced. -/
theorem Honoured.paced (hl : 0 < limitBps) {ready : Rat} (h : Honoured limitBps bucket ready chunks)
    (hready : bucket.Ready limitBps ready) :
    bucket.toBucket.Paced (limitBps : Rat) limitBps (chunks.map Chunk.toSpending) := by
  induction chunks generalizing bucket ready with
  | nil => trivial
  | cons chunk chunks ih =>
    obtain ⟨htime, hrest⟩ := h
    refine ⟨hready.available_nonneg htime, ?_⟩
    rw [← toBucket_consume hl (hready.lastRefill_le.trans htime)]
    exact ih hrest (ready_consume hl _ _ _)

/-- What a sleep makes up for is no more than the chunk. -/
theorem wait_le (hl : 0 < limitBps) {ready : Rat} (hready : bucket.Ready limitBps ready)
    (htime : ready ≤ chunk.time) :
    (bucket.consume chunk.bytes limitBps chunk.time).2 ≤ chunk.bytes / limitBps := by
  have hlimit : (0 : Rat) < limitBps := by exact_mod_cast hl
  have havail := hready.available_nonneg htime
  have htokens : (bucket.consume chunk.bytes limitBps chunk.time).1.tokens =
      bucket.toBucket.available (limitBps : Rat) limitBps chunk.time - chunk.bytes :=
    congrArg Bucket.balance (toBucket_consume hl (hready.lastRefill_le.trans htime))
  simp only [consume, if_neg hl.ne'] at htokens ⊢
  split
  · exact div_nonneg (Nat.cast_nonneg _) hlimit.le
  · apply div_le_div_of_nonneg_right _ hlimit.le
    linarith

/-- Every chunk of a run finds the bucket ready. -/
theorem Honoured.ready_at (hl : 0 < limitBps) {ready : Rat} {run rest : List Chunk}
    (h : Honoured limitBps bucket ready (run ++ chunk :: rest))
    (hready : bucket.Ready limitBps ready) :
    ∃ ready', (bucket.after limitBps run).Ready limitBps ready' ∧ ready' ≤ chunk.time := by
  induction run generalizing bucket ready with
  | nil => exact ⟨ready, hready, h.1⟩
  | cons first run ih => exact ih h.2 (ready_consume hl _ _ _)

/-- **The bound of the throttle**: under one limit, in a transfer that honours every sleep, the
chunks from one to another come to at most the limit over the time between them, one second of
credit and the last chunk; those since the bucket was made to no more than the limit over the time
and the last chunk; a sleep lasts no longer than its chunk takes at the limit; and a chunk under no
limit leaves a bucket as good as new, whatever was there before. -/
theorem throttle_bound (t0 : Rat) (hl : 0 < limitBps) (h : Honoured limitBps (new t0) t0 chunks) :
    (∀ run first last, run <:+: chunks → run.head? = some first → run.getLast? = some last →
      (bytesMoved run : Rat) ≤ limitBps * (last.time - first.time) + limitBps + last.bytes) ∧
    (∀ run last, run ++ [last] <+: chunks →
      (bytesMoved (run ++ [last]) : Rat) ≤ limitBps * (last.time - t0) + last.bytes ∧
      (((new t0).after limitBps run).consume last.bytes limitBps last.time).2 ≤
        last.bytes / limitBps) ∧
    ∀ bucket bytes now, consume bucket bytes 0 now = (new now, 0) := by
  have hpaced := h.paced hl (ready_new t0)
  refine ⟨fun run first last hrun hfirst hlast => ?_, fun run last hrun => ⟨?_, ?_⟩,
    fun bucket bytes now => rfl⟩
  · rw [← totalAmount_toSpending]
    exact Bucket.totalAmount_stretch_le (c := first.toSpending) (s := last.toSpending) hpaced
      (hrun.map Chunk.toSpending) (by simp [hfirst]) (by simp [hlast])
  · obtain ⟨rest, rfl⟩ := hrun
    rw [List.map_append, List.map_append] at hpaced
    have hspent := Bucket.totalAmount_le (Bucket.paced_append.mp hpaced).1
    rw [← List.map_singleton, ← List.map_append, totalAmount_toSpending] at hspent
    simpa [toBucket, new, Chunk.toSpending] using hspent
  · obtain ⟨rest, rfl⟩ := hrun
    rw [List.append_assoc] at h
    obtain ⟨ready, hready, htime⟩ := h.ready_at hl (ready_new t0)
    exact wait_le hl hready htime

/-- Twice the limit, paid off after two seconds, and another half. -/
theorem throttle_bound_sample :
    (bytesMoved [⟨2048, 0⟩, ⟨512, 2⟩] : Rat) ≤ (1024 : Nat) * ((2 : Rat) - 0) + (1024 : Nat) + 512 := by
  have hhonoured : Honoured 1024 (new 0) 0 [⟨2048, 0⟩, ⟨512, 2⟩] := by
    refine ⟨le_rfl, ?_, trivial⟩
    decide +kernel
  exact (throttle_bound 0 (by decide) hhonoured).1 _ ⟨2048, 0⟩ ⟨512, 2⟩ (List.infix_refl _) rfl rfl

end TokenBucket

end Rumble.Desktop
