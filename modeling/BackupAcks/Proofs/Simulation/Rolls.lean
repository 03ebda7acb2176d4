import BackupAcks.Proofs.Reply.Codec
import BackupAcks.Simulation.Traffic
import Mathlib.Data.Nat.Digits.Defs

/-!
# What a roll decides

A roll is one of the `2 ^ 53` evenly spaced numbers from zero to below one, so it has the digits to
be exact. A reply is lost if the roll is below the rate of loss, and a failure if it is below the
rounded sum of both rates. Rounding never goes past a number that is exact; so if no reply is to
fail, rounding the sum makes none fail either.

Results:
* `roundQuotient_le`: rounding does not go past an exact number;
* `not_lt_add`: a roll that is not below the rate of loss is not below its sum with zero;
* `unit_lt_one`, `not_unit_lt`: every roll is below one, and none is below zero;
* `Forward.replies_of_faultless`, `Forward.replies_of_failing`, `Forward.replies_of_losing`: what a
  backup sends if the rates leave no choice.
-/
namespace BackupAcks

namespace Binary64

/-! ## Rounding stays on its side -/

/-- Rounding to a multiple of `d` does not go past another multiple of `d`. -/
theorem divNearestEven_mul_le {n d u : Nat} (hd : 0 < d) (hu : d ∣ u) (hn : n ≤ u) :
    divNearestEven n d * d ≤ u := by
  obtain ⟨j, rfl⟩ := hu
  have hsplit := Nat.div_add_mod n d
  have hrem := Nat.mod_lt n hd
  have hq : n / d ≤ j := by
    rw [← Nat.mul_div_cancel_left j hd]
    exact Nat.div_le_div_right hn
  rw [Nat.mul_comm d j]
  refine Nat.mul_le_mul_right d ?_
  unfold divNearestEven
  by_cases hr : n % d = 0
  · simp only [hr, Nat.mul_zero, hd, if_true]
    exact hq
  · -- something is left over, so the quotient is not the last one
    have hlt : n / d < j := by
      refine Nat.lt_of_le_of_ne hq fun heq => ?_
      rw [heq] at hsplit
      omega
    have hparity := Nat.mod_lt (n / d) (Nat.zero_lt_two)
    simp only
    split
    · exact hq
    · split <;> omega

/-- Rounding to 53 digits does not go past a number of 53 digits. -/
theorem roundQuotient_le {m k j : Nat} (hk : k < Nat.pow 2 53) (hm : m ≤ k * Nat.pow 2 j) :
    roundQuotient m 1 ≤ k * Nat.pow 2 j := by
  have hspare : spareBits m ≤ j := by
    unfold spareBits
    by_cases hm0 : m = 0
    · simp [hm0]
    · have hlt : m < 2 ^ (53 + j) := by
        rw [Nat.pow_add]
        exact Nat.lt_of_le_of_lt hm (Nat.mul_lt_mul_of_pos_right hk (Nat.two_pow_pos j))
      have := (Nat.log2_lt hm0).2 hlt
      omega
  have hdvd : 2 ^ spareBits m ∣ k * 2 ^ j := Nat.dvd_mul_left_of_dvd (Nat.pow_dvd_pow 2 hspare) k
  simp only [roundQuotient, Nat.div_one, Nat.one_mul]
  exact divNearestEven_mul_le (Nat.two_pow_pos _) hdvd hm

/-! ## Probabilities -/

variable {x : Binary64}

theorem rank_finite_false (m : Nat) : (finite false m).rank = some (m : Int) := by
  simp only [rank, Bool.false_eq_true, if_false]

theorem oneUnits_lt_limit : oneUnits < limit := by
  unfold oneUnits limit
  generalize places = k
  exact Nat.pow_lt_pow_right Nat.one_lt_two (by omega)

/-- What counts as zero is a zero of either sign. -/
theorem eq_zero_of_rank (h : x.rank = some 0) : ∃ negative, x = .finite negative 0 := by
  have hlimit := oneUnits_lt_limit
  cases x with
  | nan => cases h
  | finite negative m =>
    refine ⟨negative, ?_⟩
    cases negative <;> simp_all [rank]
  | infinite negative =>
    cases negative <;> simp only [rank, Bool.false_eq_true, if_false, if_true, Option.some.injEq] at h
      <;> omega

/-- A probability is a zero of either sign or a positive number up to one. -/
theorem exists_of_isProbability (h : x.isProbability = true) :
    (∃ negative, x = .finite negative 0) ∨ ∃ m, m ≤ oneUnits ∧ x = .finite false m := by
  obtain ⟨hzero, hone⟩ := Bool.and_eq_true_iff.1 h
  have hlimit := oneUnits_lt_limit
  cases x with
  | nan => cases hone
  | infinite negative =>
    cases negative <;> simp only [le, rank, one, zero, Bool.false_eq_true, if_false, if_true,
      decide_eq_true_eq] at hone hzero <;> omega
  | finite negative m =>
    cases negative with
    | false =>
      simp only [le, rank, one, Bool.false_eq_true, if_false, decide_eq_true_eq] at hone
      exact .inr ⟨m, Int.ofNat_le.1 hone, rfl⟩
    | true =>
      simp only [le, rank, zero, Bool.false_eq_true, if_false, if_true, decide_eq_true_eq] at hzero
      have hm : m = 0 := by omega
      exact .inl ⟨true, by rw [hm]⟩

end Binary64

/-! ## Rolls -/

namespace Simulation

namespace Chance

open Binary64

def rollUnits (n : Nat) : Nat := n % Nat.pow 2 53 * Nat.pow 2 (places - 53)

theorem unit_eq (n : Nat) : unit n = .finite false (rollUnits n) := rfl

theorem rank_unit (n : Nat) : (unit n).rank = some (rollUnits n : Int) := by
  rw [unit_eq, rank_finite_false]

theorem rollUnits_lt (n : Nat) : rollUnits n < oneUnits := by
  -- said of any number of places, so that no power is worked out
  have key : ∀ k, 53 ≤ k → n % Nat.pow 2 53 * Nat.pow 2 (k - 53) < Nat.pow 2 k := by
    intro k hk
    calc n % 2 ^ 53 * 2 ^ (k - 53)
        < 2 ^ 53 * 2 ^ (k - 53) :=
          Nat.mul_lt_mul_of_pos_right (Nat.mod_lt n (Nat.two_pow_pos 53)) (Nat.two_pow_pos _)
      _ = 2 ^ k := by rw [← Nat.pow_add, Nat.add_sub_cancel' hk]
  unfold rollUnits oneUnits
  exact key places (by decide)

theorem unit_lt_finite (n m : Nat) : (unit n).lt (.finite false m) = decide (rollUnits n < m) := by
  simp only [lt, rank_unit, rank_finite_false, Int.ofNat_lt]

theorem unit_lt_one (n : Nat) : (unit n).lt one = true := by
  rw [one, unit_lt_finite]
  exact decide_eq_true (rollUnits_lt n)

theorem not_unit_lt {rate : Binary64} (h : rate.rank = some 0) (n : Nat) :
    (unit n).lt rate = false := by
  simp only [lt, rank_unit, h, decide_eq_false_iff_not]
  omega

theorem add_zero_eq {m : Nat} (hm : 0 < m) (negative : Bool) :
    (finite false m).add (.finite negative 0) = ofMagnitude false (roundQuotient m 1) := by
  have hsum : (m : Int) + (if negative then -((0 : Nat) : Int) else ((0 : Nat) : Int)) = m := by
    cases negative <;> simp
  simp only [add, Bool.false_eq_true, if_false, hsum]
  rw [if_neg (by omega), decide_eq_false (by omega), Int.natAbs_natCast]

/-- A roll that is not below a probability is not below its sum with zero, rounded as it is. -/
theorem not_lt_add {drop fail : Binary64} (hd : drop.isProbability = true)
    (hf : fail.rank = some 0) {n : Nat} (h : (unit n).lt drop = false) :
    (unit n).lt (drop.add fail) = false := by
  obtain ⟨b, rfl⟩ := eq_zero_of_rank hf
  rcases exists_of_isProbability hd with ⟨a, rfl⟩ | ⟨m, hm, rfl⟩
  · refine not_unit_lt ?_ n
    cases a <;> cases b <;> rfl
  · rcases Nat.eq_zero_or_pos m with rfl | hpos
    · refine not_unit_lt ?_ n
      cases b <;> rfl
    · rw [unit_lt_finite, decide_eq_false_iff_not, Nat.not_lt] at h
      have hround : roundQuotient m 1 ≤ rollUnits n :=
        roundQuotient_le (Nat.mod_lt n (Nat.two_pow_pos 53)) h
      have hlimit := Nat.lt_trans (rollUnits_lt n) oneUnits_lt_limit
      rw [add_zero_eq hpos, ofMagnitude, if_pos (Nat.lt_of_le_of_lt hround hlimit), unit_lt_finite]
      exact decide_eq_false (Nat.not_lt.2 hround)

end Chance

/-! ## What becomes of a reply -/

def Forward.failure (f : Forward) : Reply :=
  .errorAck f.id f.epoch s!"injected failure at backup {f.backup}"

/-- The replies that confirm a write, for all that it asks of the backup. -/
def Forward.confirmations (f : Forward) : List Reply :=
  f.segments.elim [.ack f.id f.epoch] (List.map fun s => .segmentAck f.id f.epoch s)

variable {p : Parameters} {f : Forward} {r : Reply} {n : Nat}

theorem Forward.replies_eq (p : Parameters) (roll : Binary64) (f : Forward) : f.replies p roll =
    if roll.lt p.dropRate then []
    else if roll.lt (p.dropRate.add p.failRate) then [f.failure] else f.confirmations := by
  unfold replies confirmations
  cases f.segments <;> rfl

theorem Forward.eq_ack_of_mem_confirmations (h : r ∈ f.confirmations) :
    r = .ack f.id f.epoch ∨ ∃ s, r = .segmentAck f.id f.epoch s := by
  unfold confirmations at h
  cases hs : f.segments with
  | none =>
    rw [hs] at h
    exact .inl (List.mem_singleton.1 h)
  | some segments =>
    rw [hs] at h
    obtain ⟨s, -, rfl⟩ := List.mem_map.1 h
    exact .inr ⟨s, rfl⟩

theorem Forward.textSize_of_mem_confirmations (h : r ∈ f.confirmations) : r.textSize < 2 ^ 32 := by
  rcases eq_ack_of_mem_confirmations h with rfl | ⟨s, rfl⟩ <;> exact Nat.two_pow_pos 32

/-- The report of a failure is short: it names a node, and that takes ten digits at most. -/
theorem Forward.textSize_failure (f : Forward) : f.failure.textSize < 2 ^ 32 := by
  have hdigits : (toString f.backup).utf8ByteSize ≤ 4 * 10 :=
    Nat.le_trans (Utf8.utf8ByteSize_le _) (Nat.mul_le_mul_left 4
      (Nat.repr_length f.backup.toNat 10 (by decide) (Nat.lt_trans f.backup.toNat_lt (by decide))))
  have htext : f.failure.textSize =
      "injected failure at backup ".utf8ByteSize + (toString f.backup).utf8ByteSize :=
    String.utf8ByteSize_append
  have hwords : "injected failure at backup ".utf8ByteSize = 27 := rfl
  omega

/-- Where no reply is to fail, all that are not lost are confirmations. -/
theorem Forward.mem_confirmations (hd : p.dropRate.isProbability = true)
    (hf : p.failRate.rank = some 0) (h : r ∈ f.replies p (Chance.unit n)) :
    r ∈ f.confirmations := by
  rw [replies_eq] at h
  split at h
  · cases h
  · rename_i hkept
    rw [Chance.not_lt_add hd hf (Bool.eq_false_iff.2 hkept)] at h
    exact h

/-- Where none is to get lost either, they are all sent. -/
theorem Forward.replies_of_faultless (hd : p.dropRate.rank = some 0) (hf : p.failRate.rank = some 0)
    (n : Nat) : f.replies p (Chance.unit n) = f.confirmations := by
  have hsum : (p.dropRate.add p.failRate).rank = some 0 := by
    obtain ⟨a, ha⟩ := Binary64.eq_zero_of_rank hd
    obtain ⟨b, hb⟩ := Binary64.eq_zero_of_rank hf
    rw [ha, hb]
    cases a <;> cases b <;> rfl
  rw [replies_eq, Chance.not_unit_lt hd, Chance.not_unit_lt hsum]
  rfl

/-- Where every reply is to fail, each backup reports a failure. -/
theorem Forward.replies_of_failing (hd : p.dropRate.rank = some 0) (hf : p.failRate = .one)
    (n : Nat) : f.replies p (Chance.unit n) = [f.failure] := by
  have hsum : p.dropRate.add p.failRate = .one := by
    obtain ⟨a, ha⟩ := Binary64.eq_zero_of_rank hd
    rw [ha, hf]
    cases a <;> decide +kernel
  rw [replies_eq, Chance.not_unit_lt hd, hsum, Chance.unit_lt_one]
  rfl

/-- Where every reply is to get lost, none is sent. -/
theorem Forward.replies_of_losing (hd : p.dropRate = .one) (n : Nat) :
    f.replies p (Chance.unit n) = [] := by
  rw [replies_eq, hd, Chance.unit_lt_one]
  rfl

end Simulation
end BackupAcks
