import Docbase.Text.Base64

namespace Docbase.Text

theorem base64Number?_sign : ∀ n < 64, base64Number? (base64Sign n) = some n := by decide

theorem base64Sign_ne_pad : ∀ n < 64, base64Sign n ≠ '=' := by decide

theorem bytesOfBase64?_signs {p q r s : Nat} (hp : p < 64) (hq : q < 64) (hr : r < 64) (hs : s < 64)
    (rest : List Char) :
    bytesOfBase64? (base64Sign p :: base64Sign q :: base64Sign r :: base64Sign s :: rest) =
      (bytesOfBase64? rest).map fun bytes =>
        let n := ((p * 64 + q) * 64 + r) * 64 + s
        UInt8.ofNat (n / 65536) :: UInt8.ofNat (n / 256 % 256) :: UInt8.ofNat (n % 256) :: bytes := by
  rw [bytesOfBase64?]
  · simp only [base64Number?_sign _ hp, base64Number?_sign _ hq, base64Number?_sign _ hr,
      base64Number?_sign _ hs, Option.bind_eq_bind, Option.bind_some]
    cases bytesOfBase64? rest <;> rfl
  · intro _ hpad
    exact absurd hpad (base64Sign_ne_pad _ hs)
  · intro hpad
    exact absurd hpad (base64Sign_ne_pad _ hs)

theorem bytesOfBase64?_base64 (bytes : List UInt8) :
    bytesOfBase64? (base64 bytes) = some bytes := by
  induction bytes using base64.induct with
  | case1 => rfl
  | case2 a =>
    have ha := a.toNat_lt
    obtain ⟨n, hn⟩ : ∃ n, n = a.toNat * 16 := ⟨_, rfl⟩
    have hjoin : n / 64 * 64 + n % 64 = n := by omega
    have hzero : n % 16 = 0 := by omega
    have hbyte : n / 16 = a.toNat := by omega
    simp only [base64, ← hn, bytesOfBase64?, base64Number?_sign (n / 64) (by omega),
      base64Number?_sign (n % 64) (by omega), Option.bind_eq_bind, Option.bind_some, hjoin, hzero,
      hbyte, if_true, UInt8.ofNat_toNat]
  | case3 a b =>
    have ha := a.toNat_lt
    have hb := b.toNat_lt
    obtain ⟨n, hn⟩ : ∃ n, n = (a.toNat * 256 + b.toNat) * 4 := ⟨_, rfl⟩
    have hjoin : (n / 64 / 64 * 64 + n / 64 % 64) * 64 + n % 64 = n := by omega
    have hzero : n % 4 = 0 := by omega
    have hhigh : n / 1024 = a.toNat := by omega
    have hlow : n / 4 % 256 = b.toNat := by omega
    have hlast : n % 64 < 64 := by omega
    simp only [base64, ← hn]
    rw [bytesOfBase64?]
    · simp only [base64Number?_sign (n / 64 / 64) (by omega), base64Number?_sign (n / 64 % 64)
        (by omega), base64Number?_sign _ hlast, Option.bind_eq_bind, Option.bind_some, hjoin, hzero,
        hhigh, hlow, if_true, UInt8.ofNat_toNat]
    · exact base64Sign_ne_pad _ hlast
  | case4 a b c rest ih =>
    have ha := a.toNat_lt
    have hb := b.toNat_lt
    have hc := c.toNat_lt
    obtain ⟨n, hn⟩ : ∃ n, n = (a.toNat * 256 + b.toNat) * 256 + c.toNat := ⟨_, rfl⟩
    have hjoin : ((n / 64 / 64 / 64 * 64 + n / 64 / 64 % 64) * 64 + n / 64 % 64) * 64 + n % 64 =
        n := by omega
    have hfirst : n / 65536 = a.toNat := by omega
    have hsecond : n / 256 % 256 = b.toNat := by omega
    have hthird : n % 256 = c.toNat := by omega
    simp only [base64, ← hn]
    rw [bytesOfBase64?_signs (by omega) (by omega) (by omega) (by omega), ih]
    simp only [Option.map_some, hjoin, hfirst, hsecond, hthird, UInt8.ofNat_toNat]

end Docbase.Text
