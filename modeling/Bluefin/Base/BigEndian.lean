import Mathlib.Data.Nat.Basic
import Mathlib.Tactic.Common
import Mathlib.Tactic.Ring

/-!
# Fixed-width big-endian numbers

`beBytes n v` is the `n`-byte big-endian form of `v` (`to_be_bytes`), `beVal`
the value of a byte string (`from_be_bytes`). The two are inverse to each other
on `n`-byte strings and on values below `256 ^ n`.
-/

namespace Base

/-- The `n` low bytes of `v`, most significant first. -/
def beBytes : ℕ → ℕ → List UInt8
  | 0, _ => []
  | n + 1, v => UInt8.ofNat (v / 256 ^ n) :: beBytes n v

/-- Value of a big-endian byte string. -/
def beVal : List UInt8 → ℕ
  | [] => 0
  | b :: bs => b.toNat * 256 ^ bs.length + beVal bs

@[simp] theorem beBytes_length (n v : ℕ) : (beBytes n v).length = n := by
  induction n with
  | zero => rfl
  | succ n ih => simp [beBytes, ih]

theorem beVal_lt (bs : List UInt8) : beVal bs < 256 ^ bs.length := by
  induction bs with
  | nil => simp [beVal]
  | cons b bs ih =>
    have hb : b.toNat + 1 ≤ 256 := UInt8.toNat_lt b
    have hmul : (b.toNat + 1) * 256 ^ bs.length ≤ 256 * 256 ^ bs.length :=
      Nat.mul_le_mul_right _ hb
    rw [Nat.add_mul, Nat.one_mul] at hmul
    simp only [beVal, List.length_cons, Nat.pow_succ']
    omega

theorem beBytes_mod (n v : ℕ) : beBytes n (v % 256 ^ n) = beBytes n v := by
  have key : ∀ k m, m ≤ k → beBytes m (v % 256 ^ k) = beBytes m v := by
    intro k m hm
    induction m with
    | zero => rfl
    | succ m ih =>
      have hpow : 256 ^ k = 256 ^ m * (256 * 256 ^ (k - (m + 1))) := by
        rw [← Nat.pow_succ', ← Nat.pow_add]
        congr 1
        omega
      have hdigit : (v % 256 ^ k) / 256 ^ m % 256 = v / 256 ^ m % 256 := by
        rw [hpow, Nat.mod_mul_right_div_self, Nat.mod_mod_of_dvd _ (Dvd.intro _ rfl)]
      simp only [beBytes, ih (by omega), List.cons.injEq, and_true]
      rw [← UInt8.toNat_inj]
      simpa using hdigit
  exact key n n le_rfl

theorem beVal_beBytes (n v : ℕ) : beVal (beBytes n v) = v % 256 ^ n := by
  induction n with
  | zero => simp [beBytes, beVal, Nat.mod_one]
  | succ n ih =>
    have hsplit : v % (256 ^ n * 256) = v % 256 ^ n + 256 ^ n * (v / 256 ^ n % 256) := Nat.mod_mul
    have hdigit : (UInt8.ofNat (v / 256 ^ n)).toNat = v / 256 ^ n % 256 := UInt8.toNat_ofNat'
    simp only [beBytes, beVal, beBytes_length, ih, hdigit]
    rw [Nat.pow_succ, hsplit, Nat.mul_comm, Nat.add_comm]

theorem beVal_beBytes_of_lt (n v : ℕ) (h : v < 256 ^ n) : beVal (beBytes n v) = v := by
  rw [beVal_beBytes, Nat.mod_eq_of_lt h]

theorem beBytes_beVal (bs : List UInt8) : beBytes bs.length (beVal bs) = bs := by
  induction bs with
  | nil => rfl
  | cons b bs ih =>
    have hlt := beVal_lt bs
    have hpos : 0 < 256 ^ bs.length := Nat.pow_pos (by omega)
    have hdiv : (b.toNat * 256 ^ bs.length + beVal bs) / 256 ^ bs.length = b.toNat := by
      rw [Nat.mul_comm, Nat.mul_add_div hpos, Nat.div_eq_of_lt hlt, Nat.add_zero]
    have htail : beBytes bs.length (b.toNat * 256 ^ bs.length + beVal bs) = bs := by
      rw [← beBytes_mod, Nat.mul_comm, Nat.mul_add_mod, Nat.mod_eq_of_lt hlt, ih]
    simp only [List.length_cons, beBytes, beVal, hdiv, htail, UInt8.ofNat_toNat]

end Base
