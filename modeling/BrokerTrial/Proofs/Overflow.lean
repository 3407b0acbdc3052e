import BrokerTrial.Binary64.Rounding
import Mathlib.Tactic

/-! Where the range of the floating-point numbers ends. A whole number is too large for it from one
`bound` on (`ofInt?_eq_none_iff`), and of the floating-point numbers that are numbers only the
infinite ones have no whole part (`no_whole_iff`). -/

namespace BrokerTrial.Binary64

/-! ### Patterns -/

theorem toNat_ofMagnitude {magnitude : Nat} (h : magnitude < 2 ^ 63) (negative : Bool) :
    (ofMagnitude negative magnitude).bits.toNat = magnitude + if negative then 2 ^ 63 else 0 := by
  rw [ofMagnitude, UInt64.toNat_ofNat', Nat.mod_eq_of_lt]
  · rfl
  · rw [Nat.pow_eq]
    split_ifs <;> omega

theorem classify_infinity (negative : Bool) :
    (infinity negative).classify = .infinite negative := by
  cases negative <;> decide

theorem eq_infinity {x : Binary64} {negative : Bool} (h : x.classify = .infinite negative) :
    x = infinity negative := by
  have hlt := x.bits.toNat_lt
  unfold classify at h
  simp only [Nat.pow_eq] at h
  split_ifs at h with hbiased hfraction
  obtain rfl := Class.infinite.inj h
  refine congrArg Binary64.mk (UInt64.toNat.inj (Eq.trans ?_ (toNat_ofMagnitude ?_ _).symm))
  · simp only [Nat.pow_eq, decide_eq_true_eq]
    split_ifs <;> omega
  · rw [Nat.pow_eq]
    omega

/-- Below the pattern of the infinite numbers all are finite. -/
theorem classify_ofMagnitude {magnitude : Nat} (h : magnitude < 2047 * 2 ^ 52)
    (negative sign : Bool) : (ofMagnitude negative magnitude).classify ≠ .infinite sign := by
  intro hinfinite
  unfold classify at hinfinite
  simp only [Nat.pow_eq, toNat_ofMagnitude (by omega : magnitude < 2 ^ 63)] at hinfinite
  split_ifs at hinfinite <;> omega

theorem no_whole_iff (x : Binary64) :
    x.truncate? = none ∧ x.isNaN = false ↔ ∃ negative, x = infinity negative := by
  constructor
  · rintro ⟨hwhole, hnan⟩
    cases hx : x.classify with
    | finite negative m e => simp [truncate?, hx] at hwhole
    | infinite negative => exact ⟨negative, eq_infinity hx⟩
    | nan => simp [isNaN, hx] at hnan
  · rintro ⟨negative, rfl⟩
    simp [truncate?, isNaN, classify_infinity]

/-! ### Rounding -/

/-- Halfway between the largest finite number and the next power of two. -/
def bound : Nat := 2 ^ 1024 - 2 ^ 970

theorem log2Quotient_one {n : Nat} (hn : n ≠ 0) : log2Quotient n 1 = n.log2 := by
  have hguess : (n.log2 : Int) - (1 : Nat).log2 = .ofNat n.log2 := sub_zero _
  have hreached : 1 * Nat.pow 2 n.log2 ≤ n := by
    rw [Nat.one_mul]
    exact Nat.log2_self_le hn
  unfold log2Quotient
  rw [hguess]
  simp only [hreached, decide_true, if_true]
  rfl

theorem roundQuotient_one (n : Nat) : roundQuotient n 1 = n := by
  simp [roundQuotient, Nat.mod_one]

theorem roundQuotient_le (num den : Nat) : roundQuotient num den ≤ num / den + 1 := by
  unfold roundQuotient
  dsimp only
  split_ifs <;> omega

theorem le_roundQuotient (num den : Nat) : num / den ≤ roundQuotient num den := by
  unfold roundQuotient
  dsimp only
  split_ifs <;> omega

/-- An odd quotient is rounded up from its half on. -/
theorem roundQuotient_odd {num den : Nat} (hodd : num / den % 2 = 1) :
    roundQuotient num den = num / den + if den ≤ 2 * (num % den) then 1 else 0 := by
  unfold roundQuotient
  dsimp only
  rw [hodd]
  split_ifs <;> omega

/-- The mantissa of a whole number before it is packed, and how it is packed: with the exponent of
its leading bit, where a mantissa that was rounded up to the next power of two carries over. -/
theorem nearest_one {n : Nat} (hn : n ≠ 0) (negative : Bool) :
    ∃ m, 2 ^ 52 ≤ m ∧ m ≤ 2 ^ 53 ∧
      (∀ k, n.log2 = 52 + k → m = roundQuotient n (2 ^ k)) ∧
      nearest negative n 1 =
        if (n.log2 + 1022) * 2 ^ 52 + m < 2047 * 2 ^ 52 then
          ofMagnitude negative ((n.log2 + 1022) * 2 ^ 52 + m)
        else infinity negative := by
  have hlow := Nat.log2_self_le hn
  have hhigh := Nat.lt_log2_self (n := n)
  have hunit : max ((n.log2 : Int) - 52) (-1074) = n.log2 - 52 := by omega
  have hpack {m : Nat} (hm : 2 ^ 52 ≤ m) :
      (if m < 2 ^ 52 then m else ((n.log2 : Int) - 52 + 1075).toNat * 2 ^ 52 + (m - 2 ^ 52)) =
        (n.log2 + 1022) * 2 ^ 52 + m := by
    rw [if_neg (by omega)]
    omega
  unfold nearest
  rw [if_neg hn, log2Quotient_one hn]
  dsimp only
  rw [hunit]
  by_cases hlog : n.log2 < 52
  · obtain ⟨j, hj⟩ : ∃ j, 52 = n.log2 + (j + 1) := ⟨51 - n.log2, by omega⟩
    have hneg : (n.log2 : Int) - 52 = .negSucc j := by omega
    have hm : 2 ^ 52 ≤ n * 2 ^ (j + 1) := by
      rw [hj, pow_add]
      exact Nat.mul_le_mul_right _ hlow
    have hm' : n * 2 ^ (j + 1) ≤ 2 ^ 53 := by
      rw [show 53 = n.log2 + 1 + (j + 1) by omega, pow_add 2 (n.log2 + 1)]
      exact Nat.mul_le_mul_right _ hhigh.le
    refine ⟨n * 2 ^ (j + 1), hm, hm', fun k hk => by omega, ?_⟩
    rw [← hpack hm, hneg]
    simp only [roundQuotient_one, Nat.pow_eq]
  · obtain ⟨k, hk⟩ : ∃ k, n.log2 = 52 + k := ⟨n.log2 - 52, by omega⟩
    have hpos : (n.log2 : Int) - 52 = .ofNat k := by
      rw [hk]
      exact add_sub_cancel_left 52 (k : Int)
    have hm : 2 ^ 52 ≤ roundQuotient n (2 ^ k) := by
      refine le_trans ?_ (le_roundQuotient ..)
      rw [Nat.le_div_iff_mul_le (by positivity), ← pow_add, ← hk]
      exact hlow
    have hm' : roundQuotient n (2 ^ k) ≤ 2 ^ 53 := by
      refine le_trans (roundQuotient_le ..) ?_
      rw [Nat.succ_le_iff, Nat.div_lt_iff_lt_mul (by positivity), ← pow_add,
        show 53 + k = n.log2 + 1 by omega]
      exact hhigh
    refine ⟨roundQuotient n (2 ^ k), hm, hm', fun k' hk' => ?_, ?_⟩
    · rw [show k' = k by omega]
    · rw [← hpack hm, hpos]
      simp only [Nat.one_mul, Nat.pow_eq]

/-- The mantissa of a number with 1024 bits carries over from the bound on: there is half a unit
missing, and the mantissa below is odd. -/
theorem roundQuotient_carries_iff {n : Nat} (hlog : n.log2 = 1023) :
    2 ^ 53 ≤ roundQuotient n (2 ^ 971) ↔ bound ≤ n := by
  have hhigh : n < 2 ^ 53 * 2 ^ 971 := by
    rw [← pow_add, show 53 + 971 = n.log2 + 1 by omega]
    exact Nat.lt_log2_self
  have hunit : (2 : Nat) ^ 971 = 2 * 2 ^ 970 := by
    rw [← pow_succ']
  have htop : (2 : Nat) ^ 1024 = 2 ^ 53 * 2 ^ 971 := by
    rw [← pow_add]
  have hpos : 0 < (2 : Nat) ^ 971 := pow_pos two_pos _
  rw [bound, htop]
  generalize (2 : Nat) ^ 970 = half at *
  generalize (2 : Nat) ^ 971 = den at *
  have hdiv := Nat.div_add_mod n den
  have hrest := Nat.mod_lt n hpos
  have hquotient : n / den < 2 ^ 53 := (Nat.div_lt_iff_lt_mul hpos).2 hhigh
  by_cases hlast : n / den = 2 ^ 53 - 1
  · rw [roundQuotient_odd (by rw [hlast]; rfl), hlast]
    rw [hlast, Nat.mul_comm, Nat.sub_mul] at hdiv
    split_ifs with hhalf <;> omega
  · have hle := roundQuotient_le n den
    have hbelow : den * (n / den) ≤ den * (2 ^ 53 - 2) := Nat.mul_le_mul_left _ (by omega)
    rw [Nat.mul_sub] at hbelow
    omega

theorem ofInt?_eq_none {n : Int} :
    ofInt? n = none ↔ ∃ sign, (nearest (n < 0) n.natAbs 1).classify = .infinite sign := by
  unfold ofInt?
  dsimp only
  cases (nearest (n < 0) n.natAbs 1).classify <;> simp

theorem pow_lt_bound : 2 ^ 1023 < bound := by
  have htop : (2 : Nat) ^ 1024 = 2 * 2 ^ 1023 := by
    rw [← pow_succ']
  have hunit : (2 : Nat) ^ 1023 = 2 ^ 53 * 2 ^ 970 := by
    rw [← pow_add]
  have hpos : 0 < (2 : Nat) ^ 970 := pow_pos two_pos _
  rw [bound, htop, hunit]
  generalize (2 : Nat) ^ 970 = half at *
  omega

/-- A whole number is too large from the bound on, which is no longer rounded down. -/
theorem ofInt?_eq_none_iff (n : Int) : ofInt? n = none ↔ bound ≤ n.natAbs := by
  rw [ofInt?_eq_none]
  by_cases hzero : n.natAbs = 0
  · have hnearest : nearest (n < 0) n.natAbs 1 = ofMagnitude (n < 0) 0 := by
      rw [hzero]
      rfl
    rw [hnearest, hzero]
    simp only [classify_ofMagnitude (Nat.zero_lt_succ _), exists_false, false_iff, not_le]
    exact lt_trans (Nat.two_pow_pos _) pow_lt_bound
  obtain ⟨m, hlow, hhigh, hm, hpacked⟩ := nearest_one hzero (n < 0)
  have hover : (∃ sign, (nearest (n < 0) n.natAbs 1).classify = .infinite sign) ↔
      2047 * 2 ^ 52 ≤ (n.natAbs.log2 + 1022) * 2 ^ 52 + m := by
    rw [hpacked]
    split_ifs with hfinite
    · simp only [classify_ofMagnitude hfinite, exists_false, false_iff]
      omega
    · simp only [classify_infinity, Class.infinite.injEq, exists_eq', true_iff]
      omega
  rw [hover]
  rcases lt_trichotomy n.natAbs.log2 1023 with hlog | hlog | hlog
  · have hbits : n.natAbs.log2 + 1 ≤ 1023 := hlog
    have hsmall := (Nat.lt_log2_self.trans_le (pow_le_pow_right₀ one_le_two hbits)).trans
      pow_lt_bound
    rw [iff_false_right hsmall.not_ge]
    omega
  · rw [← roundQuotient_carries_iff hlog, ← hm 971 hlog]
    omega
  · have hbits : 1024 ≤ n.natAbs.log2 := hlog
    have hpow := (pow_le_pow_right₀ one_le_two hbits).trans (Nat.log2_self_le hzero)
    have hlarge : bound ≤ n.natAbs := (Nat.sub_le ..).trans hpow
    rw [iff_true_right hlarge]
    omega

end BrokerTrial.Binary64
