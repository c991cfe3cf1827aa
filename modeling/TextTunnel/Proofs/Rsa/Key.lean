import Mathlib.NumberTheory.LucasPrimality
import Mathlib.Algebra.Squarefree.Basic
import Mathlib.NumberTheory.ArithmeticFunction.Misc
import Mathlib.FieldTheory.Finite.Basic
import TextTunnel.Rsa

/-!
# Keys whose exponents undo each other

Encrypting raises to the public exponent, decrypting to the secret one. The two undo each other on
all numbers below the modulus if the modulus is a product of different primes and the product of the
exponents leaves the remainder one modulo each prime less one.

* `PrivateKey.Valid` -- such a key.
* `PrivateKey.Valid.powMod_powMod` -- decrypting undoes encrypting.
* `Keypair.pierpont` -- a key of 2048 bits. Its primes are one more than products of twos and
  threes, so that Lucas's test proves them prime with few steps.
-/

namespace TextTunnel.Rsa

/-- The modulus is a product of different primes, and the exponents undo each other modulo each of
them. -/
structure PrivateKey.Valid (k : PrivateKey) : Prop where
  squarefree : Squarefree k.publicKey.modulus
  positive : 0 < k.publicKey.exponent * k.secretExponent
  inverse : ∀ p, p.Prime → p ∣ k.publicKey.modulus →
    k.publicKey.exponent * k.secretExponent ≡ 1 [MOD p - 1]

/-! ## 1. Modulo one prime -/

/-- A power whose exponent is one more than a multiple of `p - 1` is its base, modulo `p`. -/
theorem pow_modEq_self {p n : Nat} (hp : p.Prime) (hn : 0 < n) (h : n ≡ 1 [MOD p - 1]) (m : Nat) :
    m ^ n ≡ m [MOD p] := by
  by_cases hm : p ∣ m
  · have hpow : p ∣ m ^ n := dvd_pow hm (Nat.pos_iff_ne_zero.mp hn)
    exact ((Nat.modEq_zero_iff_dvd).mpr hpow).trans ((Nat.modEq_zero_iff_dvd).mpr hm).symm
  · obtain ⟨k, hk⟩ := (Nat.modEq_iff_dvd' hn).mp h.symm
    have hsplit : n = (p - 1) * k + 1 := by omega
    have hcoprime : m.Coprime p := ((Nat.Prime.coprime_iff_not_dvd hp).mpr hm).symm
    have hfermat : m ^ (p - 1) ≡ 1 [MOD p] := by
      rw [← Nat.totient_prime hp]
      exact Nat.ModEq.pow_totient hcoprime
    calc m ^ n = (m ^ (p - 1)) ^ k * m := by rw [hsplit, pow_succ, pow_mul]
      _ ≡ 1 ^ k * m [MOD p] := (hfermat.pow k).mul_right m
      _ = m := by rw [one_pow, one_mul]

/-! ## 2. Modulo all of them -/

/-- A number that all primes of a squarefree number divide is a multiple of it. -/
theorem dvd_of_forall_prime {n k : Nat} (hn : Squarefree n)
    (h : ∀ p, p.Prime → p ∣ n → p ∣ k) : n ∣ k := by
  rw [← Nat.prod_primeFactors_of_squarefree hn]
  refine Finset.prod_primes_dvd k (fun p hp => ?_) (fun p hp => ?_)
  · exact (Nat.prime_of_mem_primeFactors hp).prime
  · exact h p (Nat.prime_of_mem_primeFactors hp) (Nat.dvd_of_mem_primeFactors hp)

namespace PrivateKey.Valid

variable {k : PrivateKey}

theorem pow_modEq (hk : k.Valid) (m : Nat) :
    m ^ (k.publicKey.exponent * k.secretExponent) ≡ m [MOD k.publicKey.modulus] := by
  have hle : m ≤ m ^ (k.publicKey.exponent * k.secretExponent) :=
    Nat.le_self_pow (Nat.pos_iff_ne_zero.mp hk.positive) m
  refine ((Nat.modEq_iff_dvd' hle).mpr (dvd_of_forall_prime hk.squarefree fun p hp hdvd => ?_)).symm
  exact (Nat.modEq_iff_dvd' hle).mp (pow_modEq_self hp hk.positive (hk.inverse p hp hdvd) m).symm

/-- **Decrypting undoes encrypting** on every number below the modulus. -/
theorem powMod_powMod (hk : k.Valid) {m : Nat} (hm : m < k.publicKey.modulus) :
    powMod (powMod m k.publicKey.exponent k.publicKey.modulus) k.secretExponent k.publicKey.modulus
      = m := by
  rw [powMod_eq, powMod_eq]
  simp only [Nat.pow_eq]
  rw [← Nat.pow_mod, ← pow_mul]
  exact Nat.ModEq.eq_of_lt_of_lt (hk.pow_modEq m |>.symm.trans (Nat.mod_modEq _ _).symm).symm
    (Nat.mod_lt _ (Nat.lt_of_le_of_lt (Nat.zero_le m) hm)) hm

end PrivateKey.Valid

/-- Two primes make a key if the exponents undo each other modulo both. -/
theorem PrivateKey.Valid.of_primes {k : PrivateKey} {p q : Nat} (hp : p.Prime) (hq : q.Prime)
    (hne : p ≠ q) (hmodulus : k.publicKey.modulus = p * q)
    (hpos : 0 < k.publicKey.exponent * k.secretExponent)
    (hinvp : k.publicKey.exponent * k.secretExponent ≡ 1 [MOD p - 1])
    (hinvq : k.publicKey.exponent * k.secretExponent ≡ 1 [MOD q - 1]) : k.Valid where
  squarefree := by
    rw [hmodulus]
    exact (Nat.squarefree_mul ((Nat.coprime_primes hp hq).mpr hne)).mpr
      ⟨hp.squarefree, hq.squarefree⟩
  positive := hpos
  inverse r hr hdvd := by
    rw [hmodulus] at hdvd
    rcases (Nat.Prime.dvd_mul hr).mp hdvd with h | h
    · rwa [(Nat.prime_dvd_prime_iff_eq hr hp).mp h]
    · rwa [(Nat.prime_dvd_prime_iff_eq hr hq).mp h]

/-! ## 3. A key of 2048 bits -/

/-- Raises a number to the power of `k` again and again, `n` times. -/
def iteratedPow (modulus k : Nat) : Nat → Nat → Nat
  | 0, a => a
  | n + 1, a => iteratedPow modulus k n (a ^ k % modulus)

theorem iteratedPow_modEq (modulus k n a : Nat) :
    iteratedPow modulus k n a ≡ a ^ k ^ n [MOD modulus] := by
  induction n generalizing a with
  | zero => rw [iteratedPow, pow_zero, pow_one]
  | succ n ih =>
    rw [iteratedPow, pow_succ', pow_mul]
    exact (ih _).trans ((Nat.mod_modEq _ _).pow _)

/-- The power of `a` with the exponent `2 ^ u * 3 ^ v`. -/
def smoothPow (modulus u v a : Nat) : Nat :=
  iteratedPow modulus 3 v (iteratedPow modulus 2 u a) % modulus

theorem smoothPow_eq (modulus u v a : Nat) :
    smoothPow modulus u v a = a ^ (2 ^ u * 3 ^ v) % modulus := by
  have h : iteratedPow modulus 3 v (iteratedPow modulus 2 u a)
      ≡ (a ^ 2 ^ u) ^ 3 ^ v [MOD modulus] :=
    (iteratedPow_modEq modulus 3 v _).trans ((iteratedPow_modEq modulus 2 u a).pow _)
  rw [pow_mul]
  exact h

/-- **Lucas's test** where the number less one is a product of twos and threes: `a` has that order
modulo the number. -/
theorem prime_of_smoothPow {u v a p : Nat} (hp : p = 2 ^ (u + 1) * 3 ^ (v + 1) + 1)
    (hfull : smoothPow p (u + 1) (v + 1) a = 1) (htwo : smoothPow p u (v + 1) a ≠ 1)
    (hthree : smoothPow p (u + 1) v a ≠ 1) : p.Prime := by
  have hpos : 0 < 2 ^ (u + 1) * 3 ^ (v + 1) := by positivity
  have hone : 1 < p := by omega
  have hpow : ∀ n, (a : ZMod p) ^ n = 1 ↔ a ^ n % p = 1 := by
    intro n
    rw [← Nat.cast_pow, ← Nat.cast_one, ZMod.natCast_eq_natCast_iff', Nat.mod_eq_of_lt hone]
  have hpred : p - 1 = 2 ^ (u + 1) * 3 ^ (v + 1) := by omega
  rw [smoothPow_eq] at hfull htwo hthree
  refine lucas_primality p a ?_ fun q hq hdvd => ?_
  · rw [hpow, hpred]
    exact hfull
  · rw [Ne, hpow]
    rw [hpred] at hdvd ⊢
    rcases (Nat.Prime.dvd_mul hq).mp hdvd with h | h
    · obtain rfl := (Nat.prime_dvd_prime_iff_eq hq Nat.prime_two).mp (hq.dvd_of_dvd_pow h)
      rwa [pow_succ', Nat.mul_assoc, Nat.mul_div_cancel_left _ (by decide)]
    · obtain rfl := (Nat.prime_dvd_prime_iff_eq hq Nat.prime_three).mp (hq.dvd_of_dvd_pow h)
      rwa [pow_succ' 3, Nat.mul_left_comm, Nat.mul_div_cancel_left _ (by decide)]

/-- A prime of 1024 bits. -/
def primeP : Nat := 2 ^ 207 * 3 ^ 515 + 1

/-- A prime of 1025 bits. -/
def primeQ : Nat := 2 ^ 536 * 3 ^ 308 + 1

theorem prime_primeP : primeP.Prime :=
  prime_of_smoothPow (u := 206) (v := 514) (a := 5) (by decide +kernel) (by decide +kernel)
    (by decide +kernel) (by decide +kernel)

theorem prime_primeQ : primeQ.Prime :=
  prime_of_smoothPow (u := 535) (v := 307) (a := 5) (by decide +kernel) (by decide +kernel)
    (by decide +kernel) (by decide +kernel)

/-- The key of the two primes with the usual public exponent. The secret one undoes it modulo
`2 ^ 536 * 3 ^ 515`, which is a multiple of both primes less one. -/
def Keypair.pierpont : Keypair where
  privateKey := ⟨⟨primeP * primeQ, 65537⟩, (55075 * (2 ^ 536 * 3 ^ 515) + 1) / 65537⟩
  size_eq := by decide +kernel

theorem Keypair.valid_pierpont : Keypair.pierpont.privateKey.Valid :=
  .of_primes prime_primeP prime_primeQ (by decide +kernel) rfl (by decide +kernel)
    (by decide +kernel) (by decide +kernel)

end TextTunnel.Rsa
