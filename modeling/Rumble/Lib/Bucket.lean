import Mathlib.Algebra.Order.Field.Basic
import Mathlib.Algebra.BigOperators.Group.List.Basic
import Mathlib.Data.List.Induction
import Mathlib.Tactic.Linarith

/-!
# Buckets

A balance that grows at a constant rate up to a capacity and that amounts are spent from. An amount
may be larger than the balance and then leaves a debt. A list of spendings is paced if each finds
the debt of those before it paid off; paced spendings keep to the rate over every stretch of the
list, up to the capacity and the last amount.
-/

namespace Rumble.Lib

variable {K : Type}

structure Spending (K : Type) where
  amount : K
  time : K

section Total

variable [AddMonoid K]

def totalAmount (l : List (Spending K)) : K := (l.map Spending.amount).sum

@[simp] theorem totalAmount_nil : totalAmount ([] : List (Spending K)) = 0 := rfl

@[simp] theorem totalAmount_cons (s : Spending K) (l : List (Spending K)) :
    totalAmount (s :: l) = s.amount + totalAmount l := by
  simp [totalAmount]

@[simp] theorem totalAmount_append (l l' : List (Spending K)) :
    totalAmount (l ++ l') = totalAmount l + totalAmount l' := by
  simp [totalAmount]

end Total

/-- `filled` is when the balance was last computed. -/
structure Bucket (K : Type) where
  balance : K
  filled : K

namespace Bucket

variable [Field K] [LinearOrder K]

/-- What there is to spend at a time. -/
def available (rate cap : K) (b : Bucket K) (t : K) : K :=
  min (b.balance + rate * (t - b.filled)) cap

def spend (rate cap : K) (b : Bucket K) (s : Spending K) : Bucket K :=
  { balance := b.available rate cap s.time - s.amount, filled := s.time }

def spendAll (rate cap : K) (b : Bucket K) (l : List (Spending K)) : Bucket K :=
  l.foldl (spend rate cap) b

/-- Nothing is spent out of a debt. -/
def Paced (rate cap : K) : Bucket K → List (Spending K) → Prop
  | _, [] => True
  | b, s :: l => 0 ≤ b.available rate cap s.time ∧ Paced rate cap (b.spend rate cap s) l

variable {rate cap : K} {b : Bucket K} {l l' run : List (Spending K)} {s c : Spending K}

theorem paced_append : Paced rate cap b (l ++ l') ↔
    Paced rate cap b l ∧ Paced rate cap (b.spendAll rate cap l) l' := by
  induction l generalizing b with
  | nil => simp [Paced, spendAll]
  | cons s l ih => simp [Paced, ih, spendAll, and_assoc]

variable [IsStrictOrderedRing K]

theorem balance_spend_le : (b.spend rate cap s).balance ≤
    b.balance + rate * (s.time - b.filled) - s.amount :=
  sub_le_sub_right (min_le_left _ _) _

theorem balance_spend_le_cap : (b.spend rate cap s).balance ≤ cap - s.amount :=
  sub_le_sub_right (min_le_right _ _) _

/-- The balance after spendings, without the capacity. -/
theorem balance_spendAll_le : (b.spendAll rate cap l).balance ≤
    b.balance + rate * ((b.spendAll rate cap l).filled - b.filled) - totalAmount l := by
  induction l generalizing b with
  | nil => simp [spendAll]
  | cons s l ih =>
    have hrest : (b.spendAll rate cap (s :: l)).balance ≤ (b.spend rate cap s).balance +
        rate * ((b.spendAll rate cap (s :: l)).filled - s.time) - totalAmount l := ih
    have hfirst : (b.spend rate cap s).balance ≤ _ := balance_spend_le
    rw [totalAmount_cons]
    linarith

/-- What is spent since the balance was computed. -/
theorem totalAmount_le (h : Paced rate cap b (l ++ [s])) :
    totalAmount (l ++ [s]) ≤ b.balance + rate * (s.time - b.filled) + s.amount := by
  have hpaid : 0 ≤ (b.spendAll rate cap l).available rate cap s.time := (paced_append.mp h).2.1
  have hgrown : (b.spendAll rate cap l).available rate cap s.time ≤
      (b.spendAll rate cap l).balance + rate * (s.time - (b.spendAll rate cap l).filled) :=
    min_le_left _ _
  have hspent : (b.spendAll rate cap l).balance ≤
      b.balance + rate * ((b.spendAll rate cap l).filled - b.filled) - totalAmount l :=
    balance_spendAll_le
  rw [totalAmount_append, totalAmount_cons, totalAmount_nil]
  linarith

/-- **The spendings of any stretch of a paced list** come to at most the rate over the stretch, the
capacity and the last amount. -/
theorem totalAmount_stretch_le (h : Paced rate cap b l) (hrun : run <:+: l) (hc : c ∈ run.head?)
    (hs : s ∈ run.getLast?) :
    totalAmount run ≤ rate * (s.time - c.time) + cap + s.amount := by
  obtain ⟨pre, post, rfl⟩ := hrun
  obtain ⟨run, rfl⟩ : ∃ l, run = c :: l := ⟨run.tail, List.eq_cons_of_mem_head? hc⟩
  -- The bucket right after the first spending of the stretch.
  have hpaced := (paced_append.mp (paced_append.mp h).1).2
  obtain ⟨hpaid, hrest⟩ := hpaced
  cases run using List.reverseRecOn with
  | nil =>
    obtain rfl : c = s := by simpa using hs
    have hcap : 0 ≤ cap := hpaid.trans (min_le_right _ _)
    simp only [totalAmount_cons, totalAmount_nil, sub_self, mul_zero]
    linarith
  | append_singleton run x _ =>
    obtain rfl : x = s := by simpa [List.getLast?_cons] using hs
    have hspent := totalAmount_le hrest
    have hstart : (((b.spendAll rate cap pre).spend rate cap c).balance) ≤ cap - c.amount :=
      balance_spend_le_cap
    have hfilled : ((b.spendAll rate cap pre).spend rate cap c).filled = c.time := rfl
    rw [totalAmount_cons]
    rw [hfilled] at hspent
    linarith

end Bucket

end Rumble.Lib
