import Mathlib.Data.List.Basic

/-!
# Base64

The encodings of `encoding/base64`: the standard one with padding, and the raw one for URLs.
-/

namespace Base64

def letters : List Char := "ABCDEFGHIJKLMNOPQRSTUVWXYZabcdefghijklmnopqrstuvwxyz0123456789".toList

def stdAlphabet : List Char := letters ++ ['+', '/']

def urlAlphabet : List Char := letters ++ ['-', '_']

/-- The digits of three bytes, or of the last one or two with the padding. -/
def encodeChars (alphabet : List Char) : List UInt8 → List Char
  | [] => []
  | [a] =>
      let n := a.toNat * 16
      [n / 64, n % 64].map (alphabet.getD · '=') ++ ['=', '=']
  | [a, b] =>
      let n := a.toNat * 1024 + b.toNat * 4
      [n / 4096, n / 64 % 64, n % 64].map (alphabet.getD · '=') ++ ['=']
  | a :: b :: c :: rest =>
      let n := a.toNat * 65536 + b.toNat * 256 + c.toNat
      [n / 262144, n / 4096 % 64, n / 64 % 64, n % 64].map (alphabet.getD · '=') ++
        encodeChars alphabet rest

/-- `StdEncoding.EncodeToString`. -/
def encodeStd (bytes : List UInt8) : String := String.ofList (encodeChars stdAlphabet bytes)

example : encodeStd [109, 97, 110, 33] = "bWFuIQ==" := by decide

/-- The bytes of a word without padding; one digit alone makes no byte. -/
def decodeDigits : List Nat → Option (List UInt8)
  | [] => some []
  | [_] => none
  | [a, b] => some [UInt8.ofNat (a * 4 + b / 16)]
  | [a, b, c] => some [UInt8.ofNat (a * 4 + b / 16), UInt8.ofNat (b % 16 * 16 + c / 4)]
  | a :: b :: c :: d :: rest =>
      (decodeDigits rest).map fun bytes =>
        UInt8.ofNat (a * 4 + b / 16) :: UInt8.ofNat (b % 16 * 16 + c / 4) ::
          UInt8.ofNat (c % 4 * 64 + d) :: bytes

/-- `RawURLEncoding.DecodeString`, which passes over line ends. -/
def decodeRawURL (encoded : List Char) : Option (List UInt8) :=
  ((encoded.filter fun c => c ≠ '\n' ∧ c ≠ '\r').mapM fun c => urlAlphabet.findIdx? (· = c)).bind
    decodeDigits

example : decodeRawURL "bWFuIQ".toList = some [109, 97, 110, 33] := by decide

/-! ### The raw encoding for URLs -/

/-- The digits without padding. -/
def encodeDigits : List UInt8 → List Nat
  | [] => []
  | [a] => [a.toNat / 4, a.toNat % 4 * 16]
  | [a, b] => [a.toNat / 4, a.toNat % 4 * 16 + b.toNat / 16, b.toNat % 16 * 4]
  | a :: b :: c :: rest =>
      a.toNat / 4 :: (a.toNat % 4 * 16 + b.toNat / 16) :: (b.toNat % 16 * 4 + c.toNat / 64) :: c.toNat % 64 ::
        encodeDigits rest

def urlDigit (digit : Nat) : Char := urlAlphabet.getD digit '='

/-- `RawURLEncoding.EncodeToString`. -/
def encodeRawURL (bytes : List UInt8) : List Char := (encodeDigits bytes).map urlDigit

theorem encodeDigits_lt (bytes : List UInt8) : ∀ digit ∈ encodeDigits bytes, digit < 64 := by
  have hbyte : ∀ byte : UInt8, byte.toNat < 256 := fun byte => byte.toNat_lt
  fun_induction encodeDigits bytes with
  | case1 => exact fun _ h => absurd h List.not_mem_nil
  | case2 a =>
      have ha := hbyte a
      simp only [List.forall_mem_cons]
      exact ⟨by omega, by omega, List.forall_mem_nil _⟩
  | case3 a b =>
      have ha := hbyte a
      have hb := hbyte b
      simp only [List.forall_mem_cons]
      exact ⟨by omega, by omega, by omega, List.forall_mem_nil _⟩
  | case4 a b c rest ih =>
      have ha := hbyte a
      have hb := hbyte b
      have hc := hbyte c
      simp only [List.forall_mem_cons]
      exact ⟨by omega, by omega, by omega, by omega, ih⟩

theorem ofNat_eq (byte : UInt8) {n : Nat} (h : n = byte.toNat) : UInt8.ofNat n = byte := by
  rw [h, UInt8.ofNat_toNat]

theorem decodeDigits_encodeDigits (bytes : List UInt8) : decodeDigits (encodeDigits bytes) = some bytes := by
  have hbyte : ∀ byte : UInt8, byte.toNat < 256 := fun byte => byte.toNat_lt
  fun_induction encodeDigits bytes with
  | case1 => rfl
  | case2 a =>
      have ha := hbyte a
      rw [decodeDigits, ofNat_eq a (by omega)]
  | case3 a b =>
      have ha := hbyte a
      have hb := hbyte b
      rw [decodeDigits, ofNat_eq a (by omega), ofNat_eq b (by omega)]
  | case4 a b c rest ih =>
      have ha := hbyte a
      have hb := hbyte b
      have hc := hbyte c
      rw [decodeDigits, ih, ofNat_eq a (by omega), ofNat_eq b (by omega),
        ofNat_eq c (by omega)]
      rfl

theorem length_encodeDigits (bytes : List UInt8) : (encodeDigits bytes).length = (4 * bytes.length + 2) / 3 := by
  fun_induction encodeDigits bytes with
  | case1 => rfl
  | case2 a => simp
  | case3 a b => simp
  | case4 a b c rest ih =>
      simp only [List.length_cons, ih]
      omega

theorem head?_encodeDigits (byte : UInt8) (bytes : List UInt8) :
    (encodeDigits (byte :: bytes)).head? = some (byte.toNat / 4) := by
  match bytes with
  | [] => rfl
  | [_] => rfl
  | _ :: _ :: _ => rfl

/-- The last digit has what is left of the last byte. -/
def lastDigit (count : Nat) (byte : UInt8) : Nat :=
  if count % 3 = 0 then byte.toNat % 64
  else if count % 3 = 1 then byte.toNat % 4 * 16
  else byte.toNat % 16 * 4

theorem getLast?_encodeDigits (bytes : List UInt8) :
    (encodeDigits bytes).getLast? = bytes.getLast?.map (lastDigit bytes.length) := by
  fun_induction encodeDigits bytes with
  | case1 => rfl
  | case2 a => rfl
  | case3 a b => rfl
  | case4 a b c rest ih =>
      simp only [List.getLast?_cons, ih]
      cases hlast : rest.getLast? with
      | none =>
          rw [List.getLast?_eq_none_iff.mp hlast]
          simp [lastDigit]
      | some last =>
          have hcount : (a :: b :: c :: rest).length % 3 = rest.length % 3 := by
            simp only [List.length_cons]
            omega
          simp only [Option.map_some, Option.getD_some, lastDigit, hcount]

theorem findIdx?_urlDigit {digit : Nat} (h : digit < 64) :
    urlAlphabet.findIdx? (· = urlDigit digit) = some digit := by
  have hall : ∀ digit < 64, urlAlphabet.findIdx? (· = urlDigit digit) = some digit := by decide +kernel
  exact hall digit h

theorem decodeRawURL_encodeRawURL (bytes : List UInt8) : decodeRawURL (encodeRawURL bytes) = some bytes := by
  have hlt := encodeDigits_lt bytes
  have hends : ∀ c ∈ encodeRawURL bytes, c ≠ '\n' ∧ c ≠ '\r' := by
    have hdigit : ∀ digit < 64, urlDigit digit ≠ '\n' ∧ urlDigit digit ≠ '\r' := by decide +kernel
    intro c hc
    obtain ⟨digit, hmem, rfl⟩ := List.mem_map.mp hc
    exact hdigit digit (hlt digit hmem)
  have hfilter : (encodeRawURL bytes).filter (fun c => c ≠ '\n' ∧ c ≠ '\r') = encodeRawURL bytes :=
    List.filter_eq_self.mpr fun c hc => decide_eq_true (hends c hc)
  have hdigits : ∀ digits : List Nat, (∀ digit ∈ digits, digit < 64) →
      (digits.map urlDigit).mapM (fun c => urlAlphabet.findIdx? (· = c)) = some digits := by
    intro digits hdigits
    induction digits with
    | nil => rfl
    | cons digit digits ih =>
        obtain ⟨hdigit, hrest⟩ := List.forall_mem_cons.mp hdigits
        rw [List.map_cons, List.mapM_cons, findIdx?_urlDigit hdigit, ih hrest]
        rfl
  rw [decodeRawURL, hfilter, encodeRawURL, hdigits _ hlt]
  exact decodeDigits_encodeDigits bytes

end Base64
