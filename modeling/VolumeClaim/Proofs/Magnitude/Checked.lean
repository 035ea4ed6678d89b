import VolumeClaim.Magnitude.Decimal
import VolumeClaim.Magnitude.Division
import VolumeClaim.Magnitude.Product

/-!
# Magnitudes with checked words

The operations on magnitudes once more, with every product, sum and conversion made on numbers of
any size and then put into its word: if a number does not fit in the word, or a loop ends before its
work is done, there is no result.  So a result says that nothing wrapped and no bits were lost on
the way.

* `word?`, `limb?`        a number as a double word and as a limb;
* `ofDigits_eq`           reading digits has a result, and it is the one without checks;
* `mulSmall_eq`, `mulPow10_eq`, `mulPow2_eq` so have the products of a canonical magnitude;
* `divide_eq`, `divisibleBy_eq` and the divisions.
-/

namespace VolumeClaim.Magnitude.Checked
open Text

/-! ## Words -/

/-- the number as a double word -/
def word? (n : Nat) : Option UInt64 := if n < 2 ^ 64 then some n.toUInt64 else none

/-- the number as a limb -/
def limb? (n : Nat) : Option UInt32 := if n < 2 ^ 32 then some n.toUInt32 else none

/-- a product and then a sum, both of them double words -/
def mulAdd? (a b c : Nat) : Option UInt64 := do
  let product ← word? (a * b)
  word? (product.toNat + c)

theorem word?_eq {n : Nat} {w : UInt64} (h : w.toNat = n) : word? n = some w := by
  rw [word?, ← h, if_pos w.toNat_lt]
  exact congrArg some (UInt64.ofNat_toNat)

theorem limb?_eq {n : Nat} {l : UInt32} (h : l.toNat = n) : limb? n = some l := by
  rw [limb?, ← h, if_pos l.toNat_lt]
  exact congrArg some (UInt32.ofNat_toNat)

theorem limb?_of_lt {n : Nat} (h : n < 2 ^ 32) : limb? n = some n.toUInt32 := if_pos h

theorem mulAdd?_eq {a b c : Nat} {w : UInt64} (h : w.toNat = a * b + c) :
    mulAdd? a b c = some w := by
  have hlt : a * b < 2 ^ 64 := Nat.lt_of_le_of_lt (Nat.le_add_right _ c) (h ▸ w.toNat_lt)
  have hproduct : (a * b).toUInt64.toNat = a * b := UInt64.toNat_ofNat_of_lt' hlt
  rw [mulAdd?, word?_eq hproduct]
  exact word?_eq (by rw [hproduct, h])

example : mulAdd? (2 ^ 32) (2 ^ 32) 0 = none := rfl

/-! ## Reading digits -/

/-- a limb with one more digit at its end -/
def pushDigit (v : UInt32) (d : UInt8) : Option UInt32 := do
  let shifted ← limb? (v.toNat * 10)
  if 48 ≤ d.toNat then limb? (shifted.toNat + (d.toNat - 48)) else none

def limb (digits : Text) : Option UInt32 := digits.foldlM pushDigit 0

def chunks : Nat → Text → Option (List UInt32)
  | 0, [] => some []
  | 0, _ :: _ => none
  | _ + 1, [] => some []
  | n + 1, d :: ds => do
    let l ← limb ((d :: ds).take 9).reverse
    let ls ← chunks n ((d :: ds).drop 9)
    some (l :: ls)

def ofDigits (digits : Text) : Option Magnitude := do
  let ls ← chunks digits.length digits.reverse
  some ⟨trim ls⟩

theorem pushDigit_eq {v : UInt32} {d : UInt8} {k : Nat} (hd : isDigit d = true)
    (hv : v.toNat < 10 ^ k) (hk : k < 9) :
    pushDigit v d = some (v * 10 + (d - 48).toUInt32) := by
  obtain ⟨hsum, hlt⟩ := toNat_mul_ten_add hd hv hk
  have h9 : 10 ^ (k + 1) ≤ 10 ^ 9 := Nat.pow_le_pow_right (by decide) hk
  have hshifted : (v * 10).toNat = v.toNat * 10 := by
    have hten : (10 : UInt32).toNat = 10 := rfl
    rw [UInt32.toNat_mul, hten]
    omega
  have h48 := le_toNat_of_isDigit hd
  have hvalue : digitValue d = d.toNat - 48 := rfl
  rw [pushDigit, limb?_eq hshifted, Option.bind_eq_bind, Option.bind_some, if_pos h48]
  exact limb?_eq (by rw [hsum, hshifted, hvalue, Nat.mul_comm])

/-- nine digits fit in a limb -/
theorem limb_eq {t : Text} (h : t.length ≤ 9) (hd : t.all isDigit = true) :
    limb t = some (Magnitude.limb t) := by
  suffices e : ∀ (v : UInt32) (k : Nat), v.toNat < 10 ^ k → k + t.length ≤ 9 →
      t.foldlM pushDigit v = some (t.foldl (fun v d => v * 10 + (d - 48).toUInt32) v) from
    e 0 0 (by decide) (by omega)
  clear h
  induction t with
  | nil => exact fun _ _ _ _ => rfl
  | cons d t ih =>
    intro v k hv hk
    simp only [List.all_cons, Bool.and_eq_true] at hd
    rw [List.length_cons] at hk
    obtain ⟨hsum, hlt⟩ := toNat_mul_ten_add hd.1 hv (by omega)
    rw [← hsum] at hlt
    rw [List.foldlM_cons, pushDigit_eq hd.1 hv (by omega), Option.bind_eq_bind, Option.bind_some,
      ih hd.2 _ (k + 1) hlt (by omega), List.foldl_cons]

theorem chunks_succ (n : Nat) {t : Text} (h : t ≠ []) : chunks (n + 1) t = (do
    let l ← limb (t.take 9).reverse
    let ls ← chunks n (t.drop 9)
    some (l :: ls)) := by
  cases t with
  | nil => exact absurd rfl h
  | cons d t => rfl

/-- a limb for each digit is enough -/
theorem chunks_eq {n : Nat} {t : Text} (hn : t.length ≤ n) (hd : t.all isDigit = true) :
    chunks n t = some (Magnitude.chunks n t) := by
  induction n generalizing t with
  | zero =>
    obtain rfl := List.length_eq_zero_iff.mp (Nat.le_zero.mp hn)
    rfl
  | succ n ih =>
    by_cases ht : t = []
    · subst ht
      rfl
    have hpos := List.length_pos_iff.mpr ht
    have hlimb := limb_eq (length_take_reverse t 9) (all_take_reverse hd 9)
    have hrest := ih (t := t.drop 9) (by rw [List.length_drop]; omega) (all_drop hd 9)
    rw [chunks_succ n ht, hlimb, hrest, Magnitude.chunks_succ n ht]
    rfl

theorem ofDigits_eq {t : Text} (h : t.all isDigit = true) :
    ofDigits t = some (Magnitude.ofDigits t) := by
  have hchunks := chunks_eq (n := t.length) (t := t.reverse) (by rw [List.length_reverse])
    (by rw [List.all_reverse]; exact h)
  rw [ofDigits, hchunks]
  rfl

/-! ## Multiplication -/

def carryLimbs : Nat → UInt64 → Option (List UInt32)
  | 0, carry => if carry = 0 then some [] else none
  | n + 1, carry =>
    if carry = 0 then some [] else do
      let l ← limb? (carry.toNat % wideBase.toNat)
      let ls ← carryLimbs n (carry / wideBase)
      some (l :: ls)

def mulLimbs (factor : UInt32) : UInt64 → List UInt32 → Option (List UInt32)
  | carry, [] => carryLimbs 3 carry
  | carry, l :: ls => do
    let product ← mulAdd? l.toNat factor.toNat carry.toNat
    let low ← limb? (product.toNat % wideBase.toNat)
    let high ← mulLimbs factor (product / wideBase) ls
    some (low :: high)

def mulSmall (m : Magnitude) (factor : UInt32) : Option Magnitude :=
  if factor = 0 then some zero else do
    let ls ← mulLimbs factor 0 m.limbs
    some ⟨ls⟩

def mulRepeat (factor : UInt32) : Nat → Magnitude → Option Magnitude
  | 0, m => some m
  | n + 1, m => do
    let product ← mulSmall m factor
    mulRepeat factor n product

def mulPow10 (m : Magnitude) (n : Nat) : Option Magnitude := do
  let product ← mulRepeat base (n / 9) m
  let power ← limb? (10 ^ (n % 9))
  mulSmall product power

def mulPow2 (m : Magnitude) (n : Nat) : Option Magnitude := do
  let step ← limb? (2 ^ 29)
  let product ← mulRepeat step (n / 29) m
  let power ← limb? (2 ^ (n % 29))
  mulSmall product power

theorem limb?_mod_wideBase (w : UInt64) :
    limb? (w.toNat % wideBase.toNat) = some (w % wideBase).toUInt32 :=
  limb?_eq (toNat_mod_wideBase w)

/-- a carry leaves nothing when its limbs are written -/
theorem carryLimbs_eq {n : Nat} {c : UInt64} (h : c.toNat < 10 ^ (9 * n)) :
    carryLimbs n c = some (Magnitude.carryLimbs n c) := by
  induction n generalizing c with
  | zero =>
    have hc : c = 0 := UInt64.toNat_inj.mp (Nat.lt_one_iff.mp h)
    rw [carryLimbs, if_pos hc, Magnitude.carryLimbs]
  | succ n ih =>
    rw [carryLimbs, Magnitude.carryLimbs]
    split
    · rfl
    · rw [limb?_mod_wideBase, ih (div_wideBase_lt h)]
      rfl

theorem mulLimbs_eq {f : UInt32} {carry : UInt64} {ls : List UInt32} (h : ∀ l ∈ ls, l < base)
    (hc : carry.toNat < 2 ^ 32) :
    mulLimbs f carry ls = some (Magnitude.mulLimbs f carry ls) := by
  induction ls generalizing carry with
  | nil => exact carryLimbs_eq (lt_of_lt_wide hc)
  | cons l ls ih =>
    obtain ⟨hproduct, hcarry⟩ := toNat_mul_add (f := f) (h l List.mem_cons_self) hc
    have hrest := ih (fun x hx => h x (List.mem_cons_of_mem _ hx)) hcarry
    simp only [mulLimbs, mulAdd?_eq hproduct, Option.bind_eq_bind, Option.bind_some,
      limb?_mod_wideBase, hrest, Magnitude.mulLimbs]

theorem mulSmall_eq {m : Magnitude} (h : Canonical m) (f : UInt32) :
    mulSmall m f = some (m.mulSmall f) := by
  rw [mulSmall, Magnitude.mulSmall]
  split
  · rfl
  · rw [mulLimbs_eq h.1 (by decide)]
    rfl

theorem mulRepeat_eq {m : Magnitude} (h : Canonical m) (f : UInt32) (n : Nat) :
    mulRepeat f n m = some (Magnitude.mulRepeat f n m) := by
  induction n generalizing m with
  | zero => rfl
  | succ n ih =>
    rw [mulRepeat, mulSmall_eq h, Option.bind_eq_bind, Option.bind_some,
      ih (canonical_mulSmall h f), Magnitude.mulRepeat]

theorem mulPow10_eq {m : Magnitude} (h : Canonical m) (n : Nat) :
    mulPow10 m n = some (m.mulPow10 n) := by
  have hlt : 10 ^ (n % 9) < 2 ^ 32 :=
    Nat.lt_of_le_of_lt (Nat.pow_le_pow_right (by decide) (by omega : n % 9 ≤ 8)) (by decide)
  have hsmall := mulSmall_eq (canonical_mulRepeat h base (n / 9)) (10 ^ (n % 9)).toUInt32
  rw [mulPow10, mulRepeat_eq h, limb?_of_lt hlt, Magnitude.mulPow10, Nat.pow_eq]
  exact hsmall

theorem mulPow2_eq {m : Magnitude} (h : Canonical m) (n : Nat) :
    mulPow2 m n = some (m.mulPow2 n) := by
  have hlt : 2 ^ (n % 29) < 2 ^ 32 := Nat.pow_lt_pow_right (by decide) (by omega)
  have hrepeat := mulRepeat_eq h (2 ^ 29).toUInt32 (n / 29)
  have hsmall := mulSmall_eq (canonical_mulRepeat h (2 ^ 29).toUInt32 (n / 29))
    (2 ^ (n % 29)).toUInt32
  have hstep : limb? (2 ^ 29) = some (2 ^ 29).toUInt32 := limb?_of_lt (by decide)
  simp only [mulPow2, hstep, hrepeat, limb?_of_lt hlt, hsmall, Option.bind_eq_bind,
    Option.bind_some, Magnitude.mulPow2, Nat.one_shiftLeft]

/-! ## Division -/

def divLimbs (divisor : UInt32) : List UInt32 → Option (List UInt32 × UInt64)
  | [] => some ([], 0)
  | l :: ls => do
    let upper ← divLimbs divisor ls
    let dividend ← mulAdd? upper.2.toNat wideBase.toNat l.toNat
    let digit ← limb? (dividend.toNat / divisor.toNat)
    some (digit :: upper.1, dividend % divisor.toUInt64)

def divMod (m : Magnitude) (divisor : UInt32) : Option (Magnitude × UInt32) := do
  let result ← divLimbs divisor m.limbs
  let remainder ← limb? result.2.toNat
  some (⟨trim result.1⟩, remainder)

def divide (m : Magnitude) (divisor : UInt32) : Option (Except Fault (Magnitude × UInt32)) :=
  if divisor = 0 then some (.error .divisionByZero) else (divMod m divisor).map .ok

def divisibleBy (m : Magnitude) (divisor : UInt32) : Option (Except Fault Bool) :=
  if divisor = 0 then some (.error .divisionByZero)
  else (divMod m divisor).map fun result => .ok (result.2 == 0)

section
variable {d l : UInt32} {r : UInt64} (hr : r.toNat < d.toNat) (hl : l < base)
include hr hl

theorem mulAdd?_dividend :
    mulAdd? r.toNat wideBase.toNat l.toNat = some (r * wideBase + l.toUInt64) :=
  mulAdd?_eq (by rw [toNat_dividend hr hl, toNat_wideBase])

theorem limb?_quotient : limb? ((r * wideBase + l.toUInt64).toNat / d.toNat) =
    some ((r * wideBase + l.toUInt64) / d.toUInt64).toUInt32 :=
  limb?_eq (by rw [(toNat_divStep hr hl).1, toNat_dividend hr hl])

end

theorem divLimbs_eq {d : UInt32} (hd : d ≠ 0) {ls : List UInt32} (h : ∀ l ∈ ls, l < base) :
    divLimbs d ls = some (Magnitude.divLimbs d ls) := by
  induction ls with
  | nil => rfl
  | cons l ls ih =>
    have hl := h l List.mem_cons_self
    have hls : ∀ x ∈ ls, x < base := fun x hx => h x (List.mem_cons_of_mem _ hx)
    obtain ⟨_, hr, _⟩ := limbsValue_divLimbs hd hls
    have hdividend := mulAdd?_dividend hr hl
    have hdigit := limb?_quotient hr hl
    rw [divLimbs, ih hls, Option.bind_eq_bind, Option.bind_some, hdividend, Option.bind_eq_bind,
      Option.bind_some, hdigit]
    rfl

theorem divMod_eq {m : Magnitude} (h : Canonical m) {d : UInt32} (hd : d ≠ 0) :
    divMod m d = some (m.divMod d) := by
  obtain ⟨_, hr, _⟩ := limbsValue_divLimbs hd h.1
  have hremainder : (Magnitude.divLimbs d m.limbs).2.toUInt32.toNat =
      (Magnitude.divLimbs d m.limbs).2.toNat := by
    rw [UInt64.toNat_toUInt32]
    exact Nat.mod_eq_of_lt (Nat.lt_trans hr d.toNat_lt)
  simp only [divMod, divLimbs_eq hd h.1, Option.bind_eq_bind, Option.bind_some,
    limb?_eq hremainder, Magnitude.divMod]

theorem divide_eq {m : Magnitude} (h : Canonical m) (d : UInt32) :
    divide m d = some (m.divide d) := by
  rw [divide, Magnitude.divide]
  split
  · rfl
  · rename_i hd
    rw [divMod_eq h hd]
    rfl

theorem divisibleBy_eq {m : Magnitude} (h : Canonical m) (d : UInt32) :
    divisibleBy m d = some (m.divisibleBy d) := by
  rw [divisibleBy, Magnitude.divisibleBy]
  split
  · rfl
  · rename_i hd
    rw [divMod_eq h hd]
    rfl

end VolumeClaim.Magnitude.Checked
