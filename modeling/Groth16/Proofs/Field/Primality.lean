import Mathlib.Data.List.Prime
import Mathlib.NumberTheory.LucasPrimality
import Groth16.Proofs.Field.Laws

/-!
# Moduli that are prime

A field of this library is given by its modulus and a generator, and that the modulus is prime is
left to the statements that need it.  For the fields of a concrete curve it is proved here, with the
generator as the witness of Lucas's test: if the power `modulus - 1` of an element is one, and the
powers `(modulus - 1) / f` are not, for all prime factors `f` of `modulus - 1`, then the modulus is
prime.  The factors are certified in the same way, each with a generator of its own.

* `UnitOrder`: a field with the factorization of `modulus - 1`.  `UnitOrder.Holds` is what Lucas's
  test asks of it, up to the primality of the factors.
* `CertifiedFrom`: a list in which the factors of every entry are known primes or moduli of entries
  before it.
* `CertifiedFrom.prime`: all moduli of such a list are prime.
* `PrimeField.HasRoots`: the constants of a field are what they are named for, so that it has roots
  of unity for all powers of two up to its two-adicity.
* `CertifiedFrom.hasRoots`: the fields of a certified list have them.

`UnitOrder.Holds` and `CertifiedFrom` are decidable by evaluation, since `Fp` computes powers by
square-and-multiply.
-/

set_option autoImplicit false

namespace Groth16

/-- A field, with the prime factors of the number before its modulus and their exponents. -/
structure UnitOrder where
  /-- The field. -/
  field : PrimeField
  /-- The factors and their exponents. -/
  factors : List (Nat × Nat)

namespace UnitOrder

/-- The generator as an element of the field. -/
def generator (c : UnitOrder) : Fp c.field := (c.field.generator : Nat)

/-- The factors are those of `modulus - 1`, and the generator has this order if they are prime. -/
def Holds (c : UnitOrder) : Prop :=
  (c.factors.map fun f => f.1 ^ f.2).prod = c.field.modulus - 1 ∧
    c.generator ^ (c.field.modulus - 1) = 1 ∧
    ∀ f ∈ c.factors, c.generator ^ ((c.field.modulus - 1) / f.1) ≠ 1

instance (c : UnitOrder) : Decidable c.Holds := inferInstanceAs (Decidable (_ ∧ _ ∧ _))

/-- The powers of the generator that would have to be one for a smaller order. -/
theorem Holds.pow_div_ne_one {c : UnitOrder} (h : c.Holds) (primes : ∀ f ∈ c.factors, f.1.Prime)
    {q : Nat} (hq : q.Prime) (hdvd : q ∣ c.field.modulus - 1) :
    c.generator ^ ((c.field.modulus - 1) / q) ≠ 1 := by
  obtain ⟨product, -, ne⟩ := h
  rw [← product] at hdvd
  obtain ⟨x, hx, hdvd⟩ := (Prime.dvd_prod_iff hq.prime).1 hdvd
  obtain ⟨f, hf, rfl⟩ := List.mem_map.1 hx
  obtain rfl : q = f.1 := (Nat.prime_dvd_prime_iff_eq hq (primes f hf)).1 (hq.dvd_of_dvd_pow hdvd)
  exact ne f hf

/-- Lucas's test, on the residues that the library computes with. -/
theorem Holds.prime {c : UnitOrder} (h : c.Holds) (primes : ∀ f ∈ c.factors, f.1.Prime) :
    c.field.modulus.Prime := by
  have hpow : ∀ n, c.generator.toZMod ^ n = 1 ↔ c.generator ^ n = 1 := by
    intro n
    rw [← Fp.toZMod_pow, ← Fp.toZMod_one, Fp.toZMod_injective.eq_iff]
  refine lucas_primality c.field.modulus c.generator.toZMod ((hpow _).2 h.2.1) ?_
  intro q hq hdvd
  rw [ne_eq, hpow]
  exact h.pow_div_ne_one primes hq hdvd

/-- The generator has the full order. -/
theorem Holds.orderOf_generator {c : UnitOrder} (h : c.Holds)
    (primes : ∀ f ∈ c.factors, f.1.Prime) : orderOf c.generator = c.field.modulus - 1 :=
  orderOf_eq_of_pow_and_pow_div_prime (Nat.sub_pos_of_lt c.field.one_lt_modulus) h.2.1
    fun _ hq hdvd => h.pow_div_ne_one primes hq hdvd

end UnitOrder

/-- Every entry passes the test, and its factors are known or moduli of entries before it. -/
def CertifiedFrom : List Nat → List UnitOrder → Prop
  | _, [] => True
  | known, c :: cs =>
    c.Holds ∧ (∀ f ∈ c.factors, f.1 ∈ known) ∧ CertifiedFrom (c.field.modulus :: known) cs

instance CertifiedFrom.decidable : ∀ (known : List Nat) (cs : List UnitOrder),
    Decidable (CertifiedFrom known cs)
  | _, [] => inferInstanceAs (Decidable True)
  | known, c :: cs =>
    have := CertifiedFrom.decidable (c.field.modulus :: known) cs
    inferInstanceAs (Decidable (_ ∧ _ ∧ _))

/-- Every entry of a certified list passes the test, with factors that are prime. -/
theorem CertifiedFrom.forall_holds {known : List Nat} {cs : List UnitOrder}
    (h : CertifiedFrom known cs) (primes : ∀ p ∈ known, p.Prime) :
    ∀ c ∈ cs, c.Holds ∧ ∀ f ∈ c.factors, f.1.Prime := by
  induction cs generalizing known with
  | nil => simp
  | cons c cs ih =>
    obtain ⟨holds, factors, rest⟩ := h
    have hfactors : ∀ f ∈ c.factors, f.1.Prime := fun f hf => primes _ (factors f hf)
    have hc : c.field.modulus.Prime := holds.prime hfactors
    exact List.forall_mem_cons.2
      ⟨⟨holds, hfactors⟩, ih rest (List.forall_mem_cons.2 ⟨hc, primes⟩)⟩

/-- **All moduli of a certified list are prime.** -/
theorem CertifiedFrom.prime {known : List Nat} {cs : List UnitOrder} (h : CertifiedFrom known cs)
    (primes : ∀ p ∈ known, p.Prime) : ∀ c ∈ cs, c.field.modulus.Prime := by
  intro c hc
  obtain ⟨holds, hfactors⟩ := h.forall_holds primes c hc
  exact holds.prime hfactors

/-! ## Roots of unity -/

namespace PrimeField

/-- The modulus is prime, the generator has the full order, and the order of two that the field
names divides `modulus - 1` properly. -/
structure HasRoots (K : PrimeField) : Prop where
  /-- The residues are a field. -/
  prime : K.modulus.Prime
  /-- The generator generates all residues but zero. -/
  orderOf_generator : orderOf (Fp.ofNat K K.generator) = K.modulus - 1
  /-- There is a subgroup of this order. -/
  two_pow_dvd : 2 ^ K.twoAdicity ∣ K.modulus - 1
  /-- The subgroup is not the whole group, so that it has a coset besides itself. -/
  two_pow_lt : 2 ^ K.twoAdicity < K.modulus - 1

namespace HasRoots

variable {K : PrimeField} {k : Nat}

theorem two_pow_lt_orderOf (h : K.HasRoots) (hk : k ≤ K.twoAdicity) :
    2 ^ k < orderOf (Fp.ofNat K K.generator) := by
  rw [h.orderOf_generator]
  exact (Nat.pow_le_pow_right Nat.zero_lt_two hk).trans_lt h.two_pow_lt

/-- The roots of unity have the order that they are asked for. -/
theorem exists_rootOfUnity? (h : K.HasRoots) (hk : k ≤ K.twoAdicity) :
    ∃ root, K.rootOfUnity? k = some root ∧ orderOf root = 2 ^ k := by
  refine ⟨_, if_pos hk, ?_⟩
  have hdvd : 2 ^ k ∣ orderOf (Fp.ofNat K K.generator) := by
    rw [h.orderOf_generator]
    exact (pow_dvd_pow 2 hk).trans h.two_pow_dvd
  rw [Nat.one_shiftLeft, ← h.orderOf_generator]
  exact orderOf_pow_orderOf_div (Nat.ne_of_gt (Nat.zero_lt_of_lt (h.two_pow_lt_orderOf hk))) hdvd

/-- The generator is in no subgroup of such an order. -/
theorem generator_pow_ne_one (h : K.HasRoots) (hk : k ≤ K.twoAdicity) :
    Fp.ofNat K K.generator ^ 2 ^ k ≠ 1 :=
  pow_ne_one_of_lt_orderOf (Nat.two_pow_pos k).ne' (h.two_pow_lt_orderOf hk)

end HasRoots

end PrimeField

/-- The fields of a certified list have roots of unity, if their two-adicity is right. -/
theorem CertifiedFrom.hasRoots {known : List Nat} {cs : List UnitOrder}
    (h : CertifiedFrom known cs) (primes : ∀ p ∈ known, p.Prime) {c : UnitOrder} (hc : c ∈ cs)
    (dvd : 2 ^ c.field.twoAdicity ∣ c.field.modulus - 1)
    (lt : 2 ^ c.field.twoAdicity < c.field.modulus - 1) : c.field.HasRoots := by
  obtain ⟨holds, hfactors⟩ := h.forall_holds primes c hc
  exact ⟨holds.prime hfactors, holds.orderOf_generator hfactors, dvd, lt⟩

end Groth16
