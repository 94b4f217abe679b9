import Formula.Proofs.Numeric.Evaluation
import Formula.Proofs.Numeric.Quotient
import Formula.Settings

/-!
# Numbers with a given number of places

Rounding to a number of places gives a decimal with exactly that exponent, whether digits have to be
dropped or zeros to be added for it.  The number of places is itself the value of an expression, and
it may be written in any way: what counts is that it denotes a whole number within the bound of the
arithmetic.

* `RoundedAt x places d` — the decimal `d` is `x` rounded to exactly so many places.
* `exists_roundTo` — that is what rounding gives, and the sign is kept.
* `RoundedAt.roundTo` — rounding again to at least as many places does not change the number.
* `Expr.eval_rounded` — the main result, about calls of the built-in function.
-/

set_option autoImplicit false

-- Powers are those of the core library.
attribute [local instance (high)] instPowNat

namespace Formula

namespace Decimal

/-- The decimal is the number, rounded to exactly so many places: its coefficient with its sign is
the nearest whole number of units of the last place. -/
inductive RoundedAt (x : ℚ) (places : Int) : Decimal → Prop
  | intro {s : Bool} {c : Nat} :
      IsNearest (signed s c) (x * 10 ^ places) → RoundedAt x places (finite s c (-places))

theorem RoundedAt.isFinite {x : ℚ} {places : Int} {d : Decimal} (h : RoundedAt x places d) :
    d.isFinite := by
  cases h
  rfl

/-- **Rounding to a number of places**, from the exact value.  The sign is kept, even if nothing is
left of the number. -/
theorem exists_roundTo (s : Bool) (c : Nat) (e places : Int) :
    ∃ k, (finite s c e).roundTo places = .ok (finite s k (-places)) ∧
      IsNearest (signed s k) ((finite s c e).toRat * 10 ^ places) := by
  obtain ⟨k, hk⟩ : ∃ k, (finite s c e).roundTo places = .ok (finite s k (-places)) := by
    rw [roundTo]
    split
    · exact ⟨_, rfl⟩
    · exact ⟨_, rfl⟩
  obtain ⟨r, hr, -, hvalue⟩ := roundTo_spec (d := finite s c e) rfl places
  obtain ⟨m, hm, hround⟩ := exists_isNearest_roundHalf (finite s c e).toRat places
  obtain rfl := Except.ok.inj (hk.symm.trans hr)
  rw [hround, toRat_finite] at hvalue
  have hsigned : signed s k = m := by
    exact_mod_cast mul_right_cancel₀ (ten_zpow_pos (-places)).ne' hvalue
  exact ⟨k, hk, hsigned ▸ hm⟩

theorem exists_roundedAt {d : Decimal} (h : d.isFinite) (places : Int) :
    ∃ r, d.roundTo places = .ok r ∧ r.RoundedAt d.toRat places := by
  match d, h with
  | finite s c e, _ =>
    obtain ⟨k, hk, hnearest⟩ := exists_roundTo s c e places
    exact ⟨_, hk, .intro hnearest⟩

/-- **Rounding again to at least as many places** only adds zeros. -/
theorem RoundedAt.roundTo {x : ℚ} {places more : Int} {d : Decimal} (h : RoundedAt x places d)
    (hmore : places ≤ more) : ∃ r, d.roundTo more = .ok r ∧ r.toRat = d.toRat := by
  obtain @⟨s, c, -⟩ := h
  rw [Decimal.roundTo, if_pos (Int.neg_le_neg hmore)]
  refine ⟨_, rfl, ?_⟩
  have hexponent : -more + ((-places + more).toNat : Int) = -places := by omega
  rw [toRat_finite, toRat_finite, signed_mul_natCast, cast_mul_ten_pow, hexponent]

/-- The number of places that a decimal stands for, if it stands for one. -/
theorem integralValue_eq_none_iff {d : Decimal} (hd : d.isFinite) {limit : Int} :
    d.integralValue limit = none ↔ (∀ n : Int, d.toRat ≠ n) ∨ (limit : ℚ) < |d.toRat| := by
  rw [Option.eq_none_iff_forall_ne_some]
  simp only [Ne, integralValue_eq_some_iff hd, not_and, not_le]
  constructor
  · intro h
    by_cases hn : ∃ n : Int, d.toRat = n
    · obtain ⟨n, hn⟩ := hn
      have hlarge := h n hn
      rw [Int.natCast_natAbs] at hlarge
      rw [hn]
      exact .inr (by exact_mod_cast hlarge)
    · exact .inl (not_exists.1 hn)
  · rintro (h | h) n hn
    · exact absurd hn (h n)
    · rw [hn] at h
      rw [Int.natCast_natAbs]
      exact_mod_cast h

end Decimal

/-! ## Calls of the function -/

namespace Expr

open Decimal

variable {ar : Arithmetic} {name : String} {v p : Expr} {scale : Int} {x y : Decimal}

/-- Both arguments have values, and the second one is the number of places. -/
theorem eval_round_of_eval (hx : eval ar v scale = .ok x) (hy : eval ar p 0 = .ok y) :
    eval ar (.call name (.round ar) [v, p]) scale =
      match y.integralValue ar.maxRoundingDigits with
      | none => .error .precision
      | some n => x.roundTo n := by
  rw [eval_round, hx]
  show (eval ar p 0).bind _ = _
  rw [hy]
  rfl

theorem eval_round_of_toRat_eq (hx : eval ar v scale = .ok x) (hy : eval ar p 0 = .ok y)
    (hfinite : y.isFinite) {n : Int} (hn : y.toRat = n)
    (hlimit : (n.natAbs : Int) ≤ ar.maxRoundingDigits) :
    eval ar (.call name (.round ar) [v, p]) scale = x.roundTo n := by
  rw [eval_round_of_eval hx hy, (integralValue_eq_some_iff hfinite).2 ⟨hn, hlimit⟩]

/-- The number of places is refused exactly if it is not whole or out of bounds. -/
theorem eval_round_code_iff (hx : eval ar v scale = .ok x) (hxfinite : x.isFinite)
    (hy : eval ar p 0 = .ok y) (hfinite : y.isFinite) :
    (∃ f, eval ar (.call name (.round ar) [v, p]) scale = .error f ∧
        f.code? = some "INVALID_PRECISION") ↔
      (∀ n : Int, y.toRat ≠ n) ∨ (ar.maxRoundingDigits : ℚ) < |y.toRat| := by
  rw [← integralValue_eq_none_iff hfinite, eval_round_of_eval hx hy]
  cases y.integralValue ar.maxRoundingDigits with
  | none => exact iff_of_true ⟨_, rfl, rfl⟩ rfl
  | some n =>
    obtain ⟨r, hr, -⟩ := exists_roundedAt hxfinite n
    exact iff_of_false (by simp [hr]) (by simp)

/-- **Rounding to a number of places.**  The value is evaluated at the scale of the call and the
number of places at the scale zero.  If both are finite numbers, the call fails for its number of
places exactly if that is not whole or out of bounds.  Otherwise it gives the value rounded to
exactly so many places, ties going away from zero, and rounding the result again to at least as many
places does not change the number.  If the value has none, its failure is that of the call,
whatever the number of places comes to, and only then that of the number of places. -/
theorem eval_rounded (ar : Arithmetic) (name : String) (v p : Expr) (scale : Int) :
    (∀ x y : Decimal, eval ar v scale = .ok x → x.isFinite → eval ar p 0 = .ok y → y.isFinite →
      ((∃ f, eval ar (.call name (.round ar) [v, p]) scale = .error f ∧
          f.code? = some "INVALID_PRECISION") ↔
        (∀ n : Int, y.toRat ≠ n) ∨ (ar.maxRoundingDigits : ℚ) < |y.toRat|) ∧
      ∀ n : Int, y.toRat = n → (n.natAbs : Int) ≤ ar.maxRoundingDigits →
        ∃ r, eval ar (.call name (.round ar) [v, p]) scale = .ok r ∧ r.RoundedAt x.toRat n ∧
          (∀ q, n ≤ q → ∃ r', r.roundTo q = .ok r' ∧ r'.toRat = r.toRat) ∧
          ∀ (p' : Expr) (y' : Decimal) (q : Int), eval ar p' 0 = .ok y' → y'.isFinite →
            y'.toRat = q → (q.natAbs : Int) ≤ ar.maxRoundingDigits → n ≤ q →
            ∃ r', eval ar (.call name (.round ar) [.call name (.round ar) [v, p], p']) scale =
              .ok r' ∧ r'.toRat = r.toRat) ∧
      (∀ f, eval ar v scale = .error f →
        eval ar (.call name (.round ar) [v, p]) scale = .error f) ∧
      ∀ x f, eval ar v scale = .ok x → eval ar p 0 = .error f →
        eval ar (.call name (.round ar) [v, p]) scale = .error f := by
  refine ⟨fun x y hx hxfinite hy hyfinite ↦
    ⟨eval_round_code_iff hx hxfinite hy hyfinite, fun n hn hlimit ↦ ?_⟩, fun f hf ↦ ?_,
    fun x f hx hf ↦ ?_⟩
  · obtain ⟨r, hr, hrounded⟩ := exists_roundedAt hxfinite n
    have hvalue : eval ar (.call name (.round ar) [v, p]) scale = .ok r :=
      (eval_round_of_toRat_eq hx hy hyfinite hn hlimit).trans hr
    refine ⟨r, hvalue, hrounded, fun q hq ↦ hrounded.roundTo hq, fun p' y' q hy' hfinite' hq hlimit'
      hle ↦ ?_⟩
    rw [eval_round_of_toRat_eq hvalue hy' hfinite' hq hlimit']
    exact hrounded.roundTo hle
  · rw [eval_round, hf]
    rfl
  · rw [eval_round, hx]
    show (eval ar p 0).bind _ = _
    rw [hf]
    rfl

/-- The number `9.95` to `1/2` places, which are one at the scale zero: a tie with a carry, and then
again to three places.  Half a place is refused, but not before a division by zero. -/
theorem eval_rounded_halfPlace :
    eval (Settings.standard.arithmetic .native) (.const (finite false 995 (-2))) 10 =
        .ok (finite false 995 (-2)) ∧
      eval (Settings.standard.arithmetic .native)
        (.chain false (.const (finite false 1 0)) [(.divide, .const (finite false 2 0))]) 0 =
        .ok (finite false 1 0) ∧
      (∃ r, eval (Settings.standard.arithmetic .native)
          (.call "round" (.round (Settings.standard.arithmetic .native))
            [.const (finite false 995 (-2)),
              .chain false (.const (finite false 1 0)) [(.divide, .const (finite false 2 0))]]) 10 =
          .ok r ∧ r = finite false 100 (-1) ∧ r.RoundedAt (finite false 995 (-2)).toRat 1 ∧
        ∃ r', eval (Settings.standard.arithmetic .native)
          (.call "round" (.round (Settings.standard.arithmetic .native))
            [.call "round" (.round (Settings.standard.arithmetic .native))
              [.const (finite false 995 (-2)),
                .chain false (.const (finite false 1 0)) [(.divide, .const (finite false 2 0))]],
              .const (finite false 3 0)]) 10 = .ok r' ∧ r'.toRat = r.toRat) ∧
      (∃ f, eval (Settings.standard.arithmetic .native)
          (.call "round" (.round (Settings.standard.arithmetic .native))
            [.const (finite false 995 (-2)), .const (finite false 5 (-1))]) 10 = .error f ∧
        f.code? = some "INVALID_PRECISION") ∧
      eval (Settings.standard.arithmetic .native)
        (.call "round" (.round (Settings.standard.arithmetic .native))
          [.chain false (.const (finite false 1 0)) [(.divide, .const (finite false 0 0))],
            .const (finite false 5 (-1))]) 10 = .error .divisionByZero := by
  have hhalf : eval (Settings.standard.arithmetic .native)
      (.chain false (.const (finite false 1 0)) [(.divide, .const (finite false 2 0))]) 0 =
      .ok (finite false 1 0) := by
    decide +kernel
  have hone : (finite false 1 0).toRat = (1 : Int) := by rw [toRat_finite]; norm_num [signed]
  have hthree : (finite false 3 0).toRat = (3 : Int) := by rw [toRat_finite]; norm_num [signed]
  obtain ⟨r, hr, hrounded, -, hagain⟩ :=
    ((eval_rounded (Settings.standard.arithmetic .native) "round" (.const (finite false 995 (-2)))
      (.chain false (.const (finite false 1 0)) [(.divide, .const (finite false 2 0))]) 10).1 _ _
      rfl rfl hhalf rfl).2 1 hone (by decide)
  have hvalue : r = finite false 100 (-1) := by
    have hround : (finite false 995 (-2)).roundTo 1 = .ok (finite false 100 (-1)) := by
      decide +kernel
    exact Except.ok.inj (hr.symm.trans
      ((eval_round_of_toRat_eq rfl hhalf rfl hone (by decide)).trans hround))
  have hplaces : ∀ n : Int, (finite false 5 (-1)).toRat ≠ n := by
    intro n hn
    have hdouble : (1 : ℚ) = (2 * n : Int) := by
      rw [Int.cast_mul, ← hn, toRat_finite]
      norm_num [signed]
    have : (1 : Int) = 2 * n := by exact_mod_cast hdouble
    omega
  exact ⟨rfl, hhalf, ⟨r, hr, hvalue, hrounded,
      hagain (.const (finite false 3 0)) _ 3 rfl rfl hthree (by decide) (by decide)⟩,
    ((eval_rounded (Settings.standard.arithmetic .native) "round" (.const (finite false 995 (-2)))
      (.const (finite false 5 (-1))) 10).1 _ _ rfl rfl rfl rfl).1.2 (.inl hplaces),
    (eval_rounded (Settings.standard.arithmetic .native) "round"
      (.chain false (.const (finite false 1 0)) [(.divide, .const (finite false 0 0))])
      (.const (finite false 5 (-1))) 10).2.1 _ (by decide +kernel)⟩

end Expr

end Formula
