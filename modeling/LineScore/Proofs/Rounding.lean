import LineScore.Proofs.Ticks
import Mathlib.Algebra.Order.Field.Power
import Mathlib.Data.Rat.Floor
import Mathlib.Tactic.Ring

/-! Rounding keeps the order. Each stage on the way from an offset to its tick does: a quotient is rounded to
the nearest natural number, a rational number to the nearest double, whose last place grows with it, and the
product is cut to an integer. So of two offsets the later one never gets the earlier tick. -/

namespace LineScore.Number

theorem powTwo_eq (e : Int) : powTwo e = (2 : Rat) ^ e := by
  unfold powTwo
  split
  · next he =>
      obtain ⟨k, rfl⟩ := Int.eq_ofNat_of_zero_le he
      rw [Int.toNat_natCast, zpow_natCast]
  · next he =>
      obtain ⟨k, hk⟩ : ∃ k : Nat, e = -k := ⟨(-e).toNat, by omega⟩
      rw [hk, neg_neg, Int.toNat_natCast, zpow_neg, zpow_natCast, one_div]

section Quotients

variable {n d m c : Nat}

/-- A quotient is rounded to a number at most `k` if it lies below the half after `k`, or on it and `k` is
even. -/
theorem roundHalfEven_le_iff (hd : 0 < d) (k : Nat) :
    roundHalfEven n d ≤ k ↔ 2 * n < (2 * k + 1) * d ∨ (2 * n = (2 * k + 1) * d ∧ k % 2 = 0) := by
  have hsplit := Nat.div_add_mod n d
  have hrest := Nat.mod_lt n hd
  unfold roundHalfEven
  dsimp only
  generalize n / d = q at *
  generalize n % d = r at *
  subst hsplit
  have hdouble : (2 * k + 1) * d = 2 * (d * k) + d := by ring
  rw [hdouble]
  rcases lt_trichotomy q k with hlt | rfl | hgt
  · have hstep : d * q + d ≤ d * k := Nat.mul_le_mul_left d hlt
    have hle : (if 2 * r < d ∨ (2 * r = d ∧ q % 2 = 0) then q else q + 1) ≤ k := by
      split <;> omega
    exact iff_of_true hle (.inl (by omega))
  · split
    · next hdown => exact iff_of_true le_rfl (by omega)
    · next hup => exact iff_of_false (by omega) (by omega)
  · have hstep : d * k + d ≤ d * q := Nat.mul_le_mul_left d hgt
    have hnot : ¬ (if 2 * r < d ∨ (2 * r = d ∧ q % 2 = 0) then q else q + 1) ≤ k := by
      split <;> omega
    exact iff_of_false hnot (by omega)

theorem roundHalfEven_mono (hd : 0 < d) (hc : 0 < c) (h : (n / d : Rat) ≤ m / c) :
    roundHalfEven n d ≤ roundHalfEven m c := by
  have hcross : n * c ≤ m * d := by
    rw [div_le_div_iff₀ (Nat.cast_pos.mpr hd) (Nat.cast_pos.mpr hc)] at h
    exact_mod_cast h
  have hself := (roundHalfEven_le_iff hc (roundHalfEven m c)).mp le_rfl
  rw [roundHalfEven_le_iff hd]
  generalize roundHalfEven m c = k at hself ⊢
  rcases hself with hbelow | ⟨hhalf, heven⟩
  · refine .inl (Nat.lt_of_mul_lt_mul_right (a := c) ?_)
    calc 2 * n * c = 2 * (n * c) := by ring
      _ ≤ 2 * (m * d) := Nat.mul_le_mul_left 2 hcross
      _ = 2 * m * d := by ring
      _ < (2 * k + 1) * c * d := Nat.mul_lt_mul_of_pos_right hbelow hd
      _ = (2 * k + 1) * d * c := by ring
  · have hle : 2 * n ≤ (2 * k + 1) * d := by
      refine Nat.le_of_mul_le_mul_right (c := c) ?_ hc
      calc 2 * n * c = 2 * (n * c) := by ring
        _ ≤ 2 * (m * d) := Nat.mul_le_mul_left 2 hcross
        _ = 2 * m * d := by ring
        _ = (2 * k + 1) * c * d := by rw [hhalf]
        _ = (2 * k + 1) * d * c := by ring
    rcases hle.lt_or_eq with hlt | heq
    · exact .inl hlt
    · exact .inr ⟨heq, heven⟩

theorem roundHalfEven_one (k : Nat) : roundHalfEven k 1 = k := by
  simp [roundHalfEven, Nat.mod_one]

/-- A natural number bounds a quotient after rounding if it does before. -/
theorem roundHalfEven_le {k : Nat} (hd : 0 < d) (h : (n / d : Rat) ≤ k) : roundHalfEven n d ≤ k := by
  have hmono := roundHalfEven_mono (m := k) hd Nat.one_pos (by simpa using h)
  rwa [roundHalfEven_one] at hmono

theorem le_roundHalfEven {k : Nat} (hd : 0 < d) (h : (k : Rat) ≤ n / d) : k ≤ roundHalfEven n d := by
  have hmono := roundHalfEven_mono (n := k) Nat.one_pos hd (by simpa using h)
  rwa [roundHalfEven_one] at hmono

end Quotients

section Exponents

variable {n d m c : Nat}

/-- Whether the power of two is reached is decided by shifting. -/
theorem shift_le_iff (hd : 0 < d) (e : Int) :
    (if 0 ≤ e then decide (d <<< e.toNat ≤ n) else decide (d ≤ n <<< (-e).toNat)) = true ↔
      (2 : Rat) ^ e ≤ n / d := by
  have hpos : (0 : Rat) < d := Nat.cast_pos.mpr hd
  rw [le_div_iff₀ hpos]
  split
  · next he =>
      obtain ⟨k, rfl⟩ := Int.eq_ofNat_of_zero_le he
      rw [decide_eq_true_eq, Int.toNat_natCast, Nat.shiftLeft_eq, zpow_natCast, mul_comm]
      exact_mod_cast Iff.rfl
  · next he =>
      obtain ⟨k, rfl⟩ : ∃ k : Nat, e = -k := ⟨(-e).toNat, by omega⟩
      rw [decide_eq_true_eq, neg_neg, Int.toNat_natCast, Nat.shiftLeft_eq, zpow_neg, zpow_natCast,
        inv_mul_le_iff₀ (by positivity), mul_comm (2 ^ k : Rat)]
      exact_mod_cast Iff.rfl

/-- The logarithms of its parts place a quotient between two powers of two. -/
theorem quotient_between (hn : 0 < n) (hd : 0 < d) :
    (2 : Rat) ^ ((n.log2 : Int) - d.log2 - 1) < n / d ∧ (n / d : Rat) < 2 ^ ((n.log2 : Int) - d.log2 + 1) := by
  have hpos : (0 : Rat) < d := Nat.cast_pos.mpr hd
  have hn' : (2 : Rat) ^ n.log2 ≤ n := by exact_mod_cast Nat.log2_self_le hn.ne'
  have hn'' : (n : Rat) < 2 ^ (n.log2 + 1) := by exact_mod_cast Nat.lt_log2_self
  have hd' : (2 : Rat) ^ d.log2 ≤ d := by exact_mod_cast Nat.log2_self_le hd.ne'
  have hd'' : (d : Rat) < 2 ^ (d.log2 + 1) := by exact_mod_cast Nat.lt_log2_self
  have hbelow : (2 : Rat) ^ ((n.log2 : Int) - d.log2 - 1) = 2 ^ n.log2 / 2 ^ (d.log2 + 1) := by
    rw [show (n.log2 : Int) - d.log2 - 1 = (n.log2 : Int) - (d.log2 + 1 : Nat) by omega,
      zpow_sub₀ two_ne_zero, zpow_natCast, zpow_natCast]
  have habove : (2 : Rat) ^ ((n.log2 : Int) - d.log2 + 1) = 2 ^ (n.log2 + 1) / 2 ^ d.log2 := by
    rw [show (n.log2 : Int) - d.log2 + 1 = (n.log2 + 1 : Nat) - (d.log2 : Int) by omega,
      zpow_sub₀ two_ne_zero, zpow_natCast, zpow_natCast]
  constructor
  · rw [hbelow, div_lt_div_iff₀ (by positivity) hpos]
    calc (2 : Rat) ^ n.log2 * d ≤ n * d := by gcongr
      _ < n * 2 ^ (d.log2 + 1) := by gcongr
  · rw [habove, div_lt_div_iff₀ hpos (by positivity)]
    calc (n : Rat) * 2 ^ d.log2 ≤ n * d := by gcongr
      _ < 2 ^ (n.log2 + 1) * d := by gcongr

/-- The exponent is that of the largest power of two that is not above the quotient. -/
theorem floorLog2_spec (hn : 0 < n) (hd : 0 < d) :
    (2 : Rat) ^ floorLog2 n d ≤ n / d ∧ (n / d : Rat) < 2 ^ (floorLog2 n d + 1) := by
  obtain ⟨hbelow, habove⟩ := quotient_between hn hd
  have hshift := shift_le_iff (n := n) hd ((n.log2 : Int) - d.log2)
  by_cases hreached : (2 : Rat) ^ ((n.log2 : Int) - d.log2) ≤ n / d
  · have hfloor : floorLog2 n d = (n.log2 : Int) - d.log2 := if_pos (hshift.mpr hreached)
    rw [hfloor]
    exact ⟨hreached, habove⟩
  · have hfloor : floorLog2 n d = (n.log2 : Int) - d.log2 - 1 := if_neg (mt hshift.mp hreached)
    rw [hfloor, sub_add_cancel]
    exact ⟨hbelow.le, not_le.mp hreached⟩

theorem floorLog2_mono (hn : 0 < n) (hd : 0 < d) (hm : 0 < m) (hc : 0 < c) (h : (n / d : Rat) ≤ m / c) :
    floorLog2 n d ≤ floorLog2 m c := by
  have hpower : (2 : Rat) ^ floorLog2 n d < 2 ^ (floorLog2 m c + 1) :=
    calc (2 : Rat) ^ floorLog2 n d ≤ n / d := (floorLog2_spec hn hd).1
      _ ≤ m / c := h
      _ < 2 ^ (floorLog2 m c + 1) := (floorLog2_spec hm hc).2
  have hexponent := (zpow_lt_zpow_iff_right₀ one_lt_two).mp hpower
  omega

theorem lastPlace_mono (hn : 0 < n) (hd : 0 < d) (hm : 0 < m) (hc : 0 < c) (h : (n / d : Rat) ≤ m / c) :
    lastPlace n d ≤ lastPlace m c := by
  have hfloor := floorLog2_mono hn hd hm hc h
  unfold lastPlace
  omega

end Exponents

section Magnitudes

variable {n d m c : Nat}

/-- How often a power of two goes into a quotient, rounded. -/
def places (n d : Nat) (e : Int) : Nat :=
  if 0 ≤ e then roundHalfEven n (d <<< e.toNat) else roundHalfEven (n <<< (-e).toNat) d

theorem roundMagnitude_eq (n d : Nat) :
    roundMagnitude n d = places n d (lastPlace n d) * 2 ^ lastPlace n d := by
  rw [roundMagnitude, ← powTwo_eq]
  rfl

theorem exists_places_eq (n : Nat) (hd : 0 < d) (e : Int) :
    ∃ a b, 0 < b ∧ places n d e = roundHalfEven a b ∧ (a / b : Rat) = n / d / 2 ^ e := by
  unfold places
  split
  · next he =>
      obtain ⟨k, rfl⟩ := Int.eq_ofNat_of_zero_le he
      rw [Int.toNat_natCast, Nat.shiftLeft_eq]
      refine ⟨_, _, Nat.mul_pos hd (Nat.two_pow_pos k), rfl, ?_⟩
      rw [Nat.cast_mul, Nat.cast_pow, Nat.cast_ofNat, div_div, zpow_natCast]
  · next he =>
      obtain ⟨k, rfl⟩ : ∃ k : Nat, e = -k := ⟨(-e).toNat, by omega⟩
      rw [neg_neg, Int.toNat_natCast, Nat.shiftLeft_eq]
      refine ⟨_, _, hd, rfl, ?_⟩
      rw [Nat.cast_mul, Nat.cast_pow, Nat.cast_ofNat, zpow_neg, zpow_natCast, div_inv_eq_mul, div_mul_eq_mul_div]

theorem places_mono (hd : 0 < d) (hc : 0 < c) (e : Int) (h : (n / d : Rat) ≤ m / c) :
    places n d e ≤ places m c e := by
  obtain ⟨a, b, hb, hplaces, hvalue⟩ := exists_places_eq n hd e
  obtain ⟨a', b', hb', hplaces', hvalue'⟩ := exists_places_eq m hc e
  rw [hplaces, hplaces']
  refine roundHalfEven_mono hb hb' ?_
  rw [hvalue, hvalue']
  gcongr

/-- A higher power of two is a number of times a lower one. -/
theorem exists_times_pow {e k : Int} (hek : e ≤ k) : ∃ t : Nat, (2 : Rat) ^ k = t * 2 ^ e := by
  obtain ⟨j, hj⟩ := Int.le.dest hek
  refine ⟨2 ^ j, ?_⟩
  rw [← hj, zpow_add₀ two_ne_zero, zpow_natCast, Nat.cast_pow, Nat.cast_ofNat, mul_comm]

/-- A power of two that the last place goes into bounds a quotient after rounding if it does before. -/
theorem places_mul_le {e k : Int} (hd : 0 < d) (hek : e ≤ k) (h : (n / d : Rat) ≤ 2 ^ k) :
    (places n d e * 2 ^ e : Rat) ≤ 2 ^ k := by
  obtain ⟨a, b, hb, hplaces, hvalue⟩ := exists_places_eq n hd e
  obtain ⟨t, ht⟩ := exists_times_pow hek
  have hplace : (0 : Rat) < 2 ^ e := by positivity
  have hquotient : (a / b : Rat) ≤ t := by
    rw [hvalue, div_le_iff₀ hplace, ← ht]
    exact h
  rw [hplaces, ht]
  have hround := roundHalfEven_le hb hquotient
  gcongr

theorem le_places_mul {e k : Int} (hd : 0 < d) (hek : e ≤ k) (h : (2 : Rat) ^ k ≤ n / d) :
    (2 : Rat) ^ k ≤ places n d e * 2 ^ e := by
  obtain ⟨a, b, hb, hplaces, hvalue⟩ := exists_places_eq n hd e
  obtain ⟨t, ht⟩ := exists_times_pow hek
  have hplace : (0 : Rat) < 2 ^ e := by positivity
  have hquotient : (t : Rat) ≤ a / b := by
    rw [hvalue, le_div_iff₀ hplace, ← ht]
    exact h
  rw [hplaces, ht]
  have hround := le_roundHalfEven hb hquotient
  gcongr

theorem roundMagnitude_mono (hn : 0 < n) (hd : 0 < d) (hm : 0 < m) (hc : 0 < c) (h : (n / d : Rat) ≤ m / c) :
    roundMagnitude n d ≤ roundMagnitude m c := by
  rw [roundMagnitude_eq, roundMagnitude_eq]
  rcases (lastPlace_mono hn hd hm hc h).lt_or_eq with hlt | heq
  · -- the power of two that is not above the second quotient lies between the two results
    obtain ⟨-, hbelow⟩ := floorLog2_spec hn hd
    obtain ⟨hreached, -⟩ := floorLog2_spec hm hc
    have hplaces : lastPlace n d ≤ floorLog2 m c ∧ lastPlace m c ≤ floorLog2 m c ∧
        floorLog2 n d + 1 ≤ floorLog2 m c := by
      unfold lastPlace at hlt ⊢
      omega
    obtain ⟨hplace, hplace', hfloor⟩ := hplaces
    have hpower : (n / d : Rat) ≤ 2 ^ floorLog2 m c :=
      hbelow.le.trans ((zpow_le_zpow_iff_right₀ one_lt_two).mpr hfloor)
    exact (places_mul_le hd hplace hpower).trans (le_places_mul hc hplace' hreached)
  · rw [← heq]
    have hplaces := places_mono hd hc (lastPlace n d) h
    gcongr

end Magnitudes

section Doubles

variable {x y a b : Rat}

theorem natAbs_div_den (hx : 0 ≤ x) : (x.num.natAbs / x.den : Rat) = x := by
  have hnum : ((x.num.natAbs : Int) : Rat) = x.num := by rw [Int.natAbs_of_nonneg (Rat.num_nonneg.mpr hx)]
  rw [Int.cast_natCast] at hnum
  rw [hnum, Rat.num_div_den]

/-- A number of at most 53 binary digits, the last of them not below the last place there is, is a double. -/
theorem roundMagnitude_of_dyadic {k : Nat} {e : Int} (hk : k < 2 ^ 53) (he : -1074 ≤ e) (hx : 0 < x)
    (hdyadic : x = k * 2 ^ e) : roundMagnitude x.num.natAbs x.den = x := by
  have hnum : 0 < x.num.natAbs := Int.natAbs_pos.mpr (Rat.num_pos.mpr hx).ne'
  have hself := natAbs_div_den hx.le
  have hfloor : floorLog2 x.num.natAbs x.den < 53 + e := by
    rw [← zpow_lt_zpow_iff_right₀ (one_lt_two : (1 : Rat) < 2)]
    calc (2 : Rat) ^ floorLog2 x.num.natAbs x.den ≤ k * 2 ^ e := by
          rw [← hdyadic]
          exact (floorLog2_spec hnum x.den_pos).1.trans_eq hself
      _ < 2 ^ 53 * 2 ^ e := by
          have hbound : (k : Rat) < 2 ^ 53 := by exact_mod_cast hk
          gcongr
      _ = 2 ^ (53 + e) := by
          rw [zpow_add₀ two_ne_zero]
          rfl
  have hplace : lastPlace x.num.natAbs x.den ≤ e := by
    unfold lastPlace
    omega
  rw [roundMagnitude_eq]
  generalize lastPlace x.num.natAbs x.den = p at hplace ⊢
  -- the last place goes into the number a whole number of times, so there is nothing to round
  obtain ⟨t, ht⟩ := exists_times_pow hplace
  obtain ⟨a, b, hb, hplaces, hvalue⟩ := exists_places_eq x.num.natAbs x.den_pos p
  have hpower : (0 : Rat) < 2 ^ p := by positivity
  have htimes : x = (k * t : Nat) * 2 ^ p := by
    rw [hdyadic, ht]
    push_cast
    ring
  have hquotient : (a / b : Rat) = (k * t : Nat) := by
    rw [hvalue, hself, div_eq_iff hpower.ne']
    exact htimes
  have hround : places x.num.natAbs x.den p = k * t := by
    rw [hplaces]
    exact le_antisymm (roundHalfEven_le hb hquotient.le) (le_roundHalfEven hb hquotient.ge)
  rw [hround]
  exact htimes.symm

theorem nearest?_eq_some_iff (hx : 0 < x) :
    nearest? x = some a ↔ roundMagnitude x.num.natAbs x.den = a ∧ a < 2 ^ (1024 : Int) := by
  have hnum : 0 < x.num := Rat.num_pos.mpr hx
  simp only [nearest?, if_neg hnum.ne', if_neg hnum.not_gt, ← powTwo_eq]
  split
  · next hlarge =>
      refine iff_of_false (by simp) ?_
      rintro ⟨rfl, hrange⟩
      exact absurd hlarge (not_le.mpr hrange)
  · next hrange =>
      rw [Option.some.injEq]
      constructor
      · rintro rfl
        exact ⟨rfl, not_le.mp hrange⟩
      · exact And.left

theorem nearest?_of_dyadic {k : Nat} {e : Int} (hk : k < 2 ^ 53) (he : -1074 ≤ e) (hdyadic : x = k * 2 ^ e)
    (hrange : x < 2 ^ (1024 : Int)) : nearest? x = some x := by
  have hx : 0 ≤ x := by
    rw [hdyadic]
    exact mul_nonneg (Nat.cast_nonneg k) (zpow_nonneg zero_le_two e)
  rcases hx.lt_or_eq with hpos | rfl
  · exact (nearest?_eq_some_iff hpos).mpr ⟨roundMagnitude_of_dyadic hk he hpos hdyadic, hrange⟩
  · rfl

/-- A binary fraction of at most 53 digits is a double. -/
theorem nearest?_of_fraction {k e : Nat} (hk : k < 2 ^ 53) (he : e ≤ 1074) (hx : x = k / 2 ^ e) :
    nearest? x = some x := by
  refine nearest?_of_dyadic (e := -e) hk (by omega) ?_ ?_
  · rw [hx, zpow_neg, zpow_natCast, div_eq_mul_inv]
  · have hpower : (1 : Rat) ≤ 2 ^ e := one_le_pow₀ one_le_two
    calc x ≤ k := by
          rw [hx]
          exact div_le_self (Nat.cast_nonneg k) hpower
      _ < 2 ^ (53 : Int) := by exact_mod_cast hk
      _ ≤ 2 ^ (1024 : Int) := zpow_le_zpow_right₀ one_le_two (by decide)

theorem roundMagnitude_num_mono (hx : 0 < x) (hxy : x ≤ y) :
    roundMagnitude x.num.natAbs x.den ≤ roundMagnitude y.num.natAbs y.den := by
  have hnum : ∀ z : Rat, 0 < z → 0 < z.num.natAbs := fun z hz =>
    Int.natAbs_pos.mpr (Rat.num_pos.mpr hz).ne'
  refine roundMagnitude_mono (hnum x hx) x.den_pos (hnum y (hx.trans_le hxy)) y.den_pos ?_
  rwa [natAbs_div_den hx.le, natAbs_div_den (hx.le.trans hxy)]

theorem nearest?_mono (hx : 0 ≤ x) (hxy : x ≤ y) (ha : nearest? x = some a) (hb : nearest? y = some b) :
    a ≤ b := by
  rcases hx.lt_or_eq with hpos | rfl
  · have hpos' : 0 < y := hpos.trans_le hxy
    obtain ⟨rfl, -⟩ := (nearest?_eq_some_iff hpos).mp ha
    obtain ⟨rfl, -⟩ := (nearest?_eq_some_iff hpos').mp hb
    exact roundMagnitude_num_mono hpos hxy
  · obtain rfl : 0 = a := Option.some.inj ha
    exact nearest?_nonneg hxy hb

/-- What lies between two doubles has a double, and it lies between them. -/
theorem exists_nearest? (ha : nearest? a = some a) (hnonneg : 0 ≤ a) (hax : a ≤ x) (hb : nearest? b = some b)
    (hxb : x ≤ b) : ∃ d, nearest? x = some d ∧ a ≤ d ∧ d ≤ b := by
  have hx : 0 ≤ x := hnonneg.trans hax
  obtain ⟨d, hd⟩ : ∃ d, nearest? x = some d := by
    rcases hx.lt_or_eq with hpos | rfl
    · obtain ⟨hround, hrange⟩ := (nearest?_eq_some_iff (hpos.trans_le hxb)).mp hb
      have hmono := roundMagnitude_num_mono hpos hxb
      rw [hround] at hmono
      exact ⟨_, (nearest?_eq_some_iff hpos).mpr ⟨rfl, hmono.trans_lt hrange⟩⟩
    · exact ⟨0, rfl⟩
  exact ⟨d, hd, nearest?_mono hnonneg hax ha hd, nearest?_mono hx hxb hd hb⟩

theorem truncate_eq_floor (hx : 0 ≤ x) : truncate x = ⌊x⌋ := by
  rw [truncate, Int.tdiv_eq_ediv_of_nonneg (Rat.num_nonneg.mpr hx), Rat.floor_def']

theorem truncate_mono (hx : 0 ≤ x) (hxy : x ≤ y) : truncate x ≤ truncate y := by
  rw [truncate_eq_floor hx, truncate_eq_floor (hx.trans hxy)]
  exact Int.floor_le_floor hxy

end Doubles

end LineScore.Number

namespace LineScore.Midi

theorem double_eq_ok_iff {x d : Rat} : double x = .ok d ↔ Number.nearest? x = some d := by
  unfold double
  cases Number.nearest? x <;> simp

theorem exists_product {d : Rat} {t : Int} (h : ticksOfDouble d = .ok t) :
    ∃ product, Number.nearest? (d * (ticksPerQuarter : Rat)) = some product ∧ Number.truncate product = t := by
  unfold ticksOfDouble at h
  split at h
  · next product hproduct => exact ⟨product, hproduct, Except.ok.inj h⟩
  · cases h

/-- A later offset does not get an earlier tick. -/
theorem ticks_mono {x y : Rat} {a b : Int} (hx : 0 ≤ x) (hxy : x ≤ y) (ha : ticks x = .ok a)
    (hb : ticks y = .ok b) : a ≤ b := by
  obtain ⟨d, hd, ha⟩ := exists_of_bind_eq_ok ha
  obtain ⟨c, hc, hb⟩ := exists_of_bind_eq_ok hb
  rw [double_eq_ok_iff] at hd hc
  obtain ⟨product, hproduct, rfl⟩ := exists_product ha
  obtain ⟨product', hproduct', rfl⟩ := exists_product hb
  have hdc : d ≤ c := Number.nearest?_mono hx hxy hd hc
  have hscale : (0 : Rat) ≤ (ticksPerQuarter : Rat) := Nat.cast_nonneg _
  have hd' : 0 ≤ d * (ticksPerQuarter : Rat) := mul_nonneg (Number.nearest?_nonneg hx hd) hscale
  exact Number.truncate_mono (Number.nearest?_nonneg hd' hproduct)
    (Number.nearest?_mono hd' (mul_le_mul_of_nonneg_right hdc hscale) hproduct hproduct')

end LineScore.Midi
