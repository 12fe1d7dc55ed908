/-
This file models `ProxyConfig` of `types/ProxyConfig.hpp`: how an address is put together from a
host and a port, and how it is taken apart and judged.

The address is split at its last colon, so a host with colons in it comes back. The port behind the
colon is read with `std::stoi`, which skips blanks, takes a sign and stops at the first character
that is no digit; what it skipped and where it stopped is not looked at, so an address passes whose
port is not a number. Credentials are split at their first colon.
-/

import Mathlib.Algebra.Group.Int.Defs
import Kurlyk.Lib.Text
import Kurlyk.Utils.Characters

namespace Kurlyk.Http

open Text Utils

/-! ### The model -/

/-- The number that a row of decimal digits stands for. -/
def decimalValue (digits : List UInt8) : ℕ :=
  digits.foldl (fun number digit => 10 * number + (digit.toNat - 48)) 0

/-- What `std::stoi` throws. -/
inductive StoiError where
  | invalidArgument
  | outOfRange
deriving DecidableEq

/-- `std::stoi` of a string, which is read as a C string by `strtol`. -/
def stoi (str : List UInt8) : Except StoiError ℤ :=
  let text := (str.takeWhile (· ≠ 0)).dropWhile isspace
  let sign := text.head?.filter fun ch => ch = '-'.toUInt8 ∨ ch = '+'.toUInt8
  let digits := (text.drop sign.toList.length).takeWhile isdigit
  if digits.isEmpty then .error .invalidArgument
  else
    let number : ℤ :=
      if sign = some '-'.toUInt8 then -(decimalValue digits : ℤ) else decimalValue digits
    if number < -2 ^ 31 ∨ 2 ^ 31 - 1 < number then .error .outOfRange else .ok number

inductive ProxyType where
  | proxyHttp
  | proxyHttps
  | proxyHttp10
  | proxySocks4
  | proxySocks4a
  | proxySocks5
  | proxySocks5Hostname
deriving DecidableEq

structure ProxyConfig where
  proxyServer : List UInt8 := []
  proxyAuth : List UInt8 := []
  proxyType : ProxyType := .proxyHttp
  use : Bool := false
deriving DecidableEq

namespace ProxyConfig

def setProxy (config : ProxyConfig) (ip : List UInt8) (port : ℤ) (type : ProxyType) : ProxyConfig :=
  { config with proxyServer := ip ++ ascii ":" ++ ascii port.repr, proxyType := type }

def getIp (config : ProxyConfig) : List UInt8 :=
  match rfindChar config.proxyServer ':'.toUInt8 with
  | none => []
  | some pos => if pos = 0 then [] else config.proxyServer.take pos

def getPort (config : ProxyConfig) : ℤ :=
  match rfindChar config.proxyServer ':'.toUInt8 with
  | none => 0
  | some pos =>
    if pos + 1 ≥ config.proxyServer.length then 0
    else
      match stoi (config.proxyServer.drop (pos + 1)) with
      | .ok port => if port > 0 ∧ port ≤ 65535 then port else 0
      | .error _ => 0

def isValid (config : ProxyConfig) : Bool :=
  !config.getIp.isEmpty && config.getPort ≠ 0

def setProxyAuth (config : ProxyConfig) (username password : List UInt8) : ProxyConfig :=
  { config with proxyAuth := username ++ ascii ":" ++ password }

/-- `set_proxy` with a username and a password. -/
def setProxyWithAuth (config : ProxyConfig) (ip : List UInt8) (port : ℤ)
    (username password : List UInt8) (type : ProxyType) : ProxyConfig :=
  (config.setProxy ip port type).setProxyAuth username password

def getUsername (config : ProxyConfig) : List UInt8 :=
  match findChar config.proxyAuth ':'.toUInt8 0 with
  | none => []
  | some pos => config.proxyAuth.take pos

def getPassword (config : ProxyConfig) : List UInt8 :=
  match findChar config.proxyAuth ':'.toUInt8 0 with
  | none => []
  | some pos =>
    if pos + 1 ≥ config.proxyAuth.length then [] else config.proxyAuth.drop (pos + 1)

end ProxyConfig

/-! ### What `std::stoi` reads -/

/-- How `std::stoi` reads a text as a number without a minus sign: blanks, a plus sign or none,
digits, and what it does not look at. -/
structure NumberReading where
  blanks : List UInt8
  sign : List UInt8
  digits : List UInt8
  ignored : List UInt8
  blanks_form : ∀ ch ∈ blanks, isspace ch = true
  sign_form : sign = [] ∨ sign = ['+'.toUInt8]
  digits_some : digits ≠ []
  digits_form : ∀ ch ∈ digits, isdigit ch = true
  ignored_form : ∀ ch ∈ ignored.head?, isdigit ch = false

theorem isdigit_plain (ch : UInt8) (digit : isdigit ch = true) :
    (ch ≠ 0 ∧ isspace ch = false) ∧ ch ≠ '-'.toUInt8 ∧ ch ≠ '+'.toUInt8 ∧ ch ≠ ':'.toUInt8 := by
  have bounds := (isdigit_iff ch).mp digit
  obtain ⟨visible, minus, plus, _⟩ := plain_of_le bounds.1
  refine ⟨visible, minus, plus, ?_⟩
  rintro rfl
  exact absurd bounds (by decide)

theorem isspace_plain (ch : UInt8) (blank : isspace ch = true) : ch ≠ 0 ∧ isdigit ch = false := by
  have bounds := toNat_le_of_isspace blank
  refine ⟨?_, ?_⟩
  · rintro rfl
    exact absurd bounds (by decide)
  · rw [← Bool.not_eq_true, isdigit_iff]
    omega

/-- The digits at the beginning of a text. -/
theorem takeWhile_isdigit {digits ignored : List UInt8}
    (all : ∀ ch ∈ digits, isdigit ch = true) (ends : ∀ ch ∈ ignored.head?, isdigit ch = false) :
    (digits ++ ignored).takeWhile isdigit = digits := by
  have none : ignored.takeWhile isdigit = [] := by
    cases ignored with
    | nil => rfl
    | cons ch rest => exact List.takeWhile_cons_of_neg (by simp [ends ch rfl])
  rw [List.takeWhile_append_of_pos all, none, List.append_nil]

/-- A number that is written in digits is read from them. -/
theorem decimalValue_repr (number : ℕ) : decimalValue (ascii number.repr) = number := by
  rw [decimalValue, ascii, Nat.toList_repr, List.foldl_map]
  refine Eq.trans (List.foldl_ext _ _ 0 fun sofar digit written => ?_)
    (Nat.ofDigitChars_ten_toDigits (n := number))
  rw [(code_of_mem_toDigits written).2.2]
  rfl

namespace NumberReading

/-- The text that is read. -/
def text (reading : NumberReading) : List UInt8 :=
  reading.blanks ++ (reading.sign ++ (reading.digits ++ reading.ignored))

def value (reading : NumberReading) : ℕ :=
  decimalValue reading.digits

variable (reading : NumberReading)

/-- What is left of the text without a terminator and the blanks. -/
theorem trimmed : (reading.text.takeWhile (· ≠ 0)).dropWhile isspace =
    reading.sign ++ (reading.digits ++ reading.ignored.takeWhile (· ≠ 0)) := by
  have blanks : ∀ ch ∈ reading.blanks, decide (ch ≠ 0) = true := fun ch member =>
    decide_eq_true (isspace_plain ch (reading.blanks_form ch member)).1
  have digits : ∀ ch ∈ reading.digits, decide (ch ≠ 0) = true := fun ch member =>
    decide_eq_true (isdigit_plain ch (reading.digits_form ch member)).1.1
  have sign : ∀ ch ∈ reading.sign, decide (ch ≠ 0) = true := by
    rcases reading.sign_form with none | plus
    · rw [none]
      exact fun ch member => absurd member List.not_mem_nil
    · rw [plus]
      exact List.forall_mem_singleton.mpr (by decide)
  rw [text, List.takeWhile_append_of_pos blanks, List.takeWhile_append_of_pos sign,
    List.takeWhile_append_of_pos digits, List.dropWhile_append_of_pos reading.blanks_form]
  rcases reading.sign_form with none | plus
  · rw [none, List.nil_append]
    obtain ⟨digit, rest, first⟩ := List.exists_cons_of_ne_nil reading.digits_some
    have isDigit := reading.digits_form digit (first ▸ List.mem_cons_self)
    rw [first, List.cons_append, List.dropWhile_cons_of_neg]
    simp [(isdigit_plain digit isDigit).1.2]
  · rw [plus, List.singleton_append, List.dropWhile_cons_of_neg (by decide)]

/-- The number that is read, when an `int` can hold it. -/
theorem stoi_text (fits : reading.value < 2 ^ 31) :
    stoi reading.text = .ok (reading.value : ℤ) := by
  have ends : ∀ ch ∈ (reading.ignored.takeWhile (· ≠ 0)).head?, isdigit ch = false := by
    intro ch first
    refine reading.ignored_form ch ?_
    cases rest : reading.ignored with
    | nil => rw [rest] at first; exact first
    | cons other more =>
      rw [rest, List.takeWhile_cons] at first
      split at first
      · exact first
      · exact absurd first (by simp)
  have digits := takeWhile_isdigit reading.digits_form ends
  have notEmpty : reading.digits.isEmpty = false := by simpa using reading.digits_some
  have inRange : ¬ ((reading.value : ℤ) < -2 ^ 31 ∨ (2 : ℤ) ^ 31 - 1 < reading.value) := by omega
  rw [value] at inRange
  rw [stoi, trimmed]
  rcases reading.sign_form with none | plus
  · rw [none, List.nil_append]
    obtain ⟨digit, rest, first⟩ := List.exists_cons_of_ne_nil reading.digits_some
    obtain ⟨_, minus, plus, _⟩ :=
      isdigit_plain digit (reading.digits_form digit (first ▸ List.mem_cons_self))
    have unsigned : ((reading.digits ++ reading.ignored.takeWhile (· ≠ 0)).head?.filter
        fun ch => ch = '-'.toUInt8 ∨ ch = '+'.toUInt8) = Option.none := by
      rw [first]
      simp [minus, plus]
    simp only [unsigned, Option.toList_none, List.length_nil, List.drop_zero, digits, notEmpty]
    exact if_neg inRange
  · rw [plus, List.singleton_append]
    have signed (rest : List UInt8) : (('+'.toUInt8 :: rest).head?.filter
        fun ch => ch = '-'.toUInt8 ∨ ch = '+'.toUInt8) = some '+'.toUInt8 := rfl
    simp only [signed, Option.toList_some, List.length_singleton, List.drop_succ_cons,
      List.drop_zero, digits, notEmpty]
    exact if_neg inRange

end NumberReading

/-- What is left when a text is without its first characters of a kind begins with none of them. -/
theorem head_dropWhile {kind : UInt8 → Bool} {text : List UInt8} :
    ∀ ch ∈ (text.dropWhile kind).head?, kind ch = false := by
  intro ch first
  have stopped := List.head?_dropWhile_not kind text
  rw [Option.mem_def.mp first] at stopped
  simpa using stopped

/-- A first character of a kind and the rest are the text. -/
theorem filter_head_append (kind : UInt8 → Bool) (text : List UInt8) :
    (text.head?.filter kind).toList ++ text.drop (text.head?.filter kind).toList.length = text := by
  cases text with
  | nil => rfl
  | cons ch rest =>
    rw [List.head?_cons, Option.filter_some]
    split
    · rfl
    · rfl

/-- A sign that is not a minus is a plus or is missing. -/
theorem toList_sign {text : List UInt8} {sign : Option UInt8}
    (taken : (text.head?.filter fun ch => ch = '-'.toUInt8 ∨ ch = '+'.toUInt8) = sign)
    (notMinus : sign ≠ some '-'.toUInt8) : sign.toList = [] ∨ sign.toList = ['+'.toUInt8] := by
  cases sign with
  | none => exact .inl rfl
  | some ch =>
    refine .inr ?_
    rcases of_decide_eq_true (Option.filter_eq_some_iff.mp taken).2 with rfl | rfl
    · exact absurd rfl notMinus
    · rfl

/-- Behind the digits stands no digit, whether the text or the string ends there. -/
theorem head_behind_digits (unsigned text : List UInt8) :
    ∀ ch ∈ (unsigned.dropWhile isdigit ++ text.dropWhile (· ≠ 0)).head?, isdigit ch = false := by
  intro ch first
  rw [List.head?_append, Option.mem_def, Option.or_eq_some_iff] at first
  rcases first with first | ⟨_, terminator⟩
  · exact head_dropWhile ch first
  · have zero : ch = 0 := by simpa using head_dropWhile ch terminator
    rw [zero]
    decide

/-- A positive number is read from a text in that way only. -/
theorem exists_reading {text : List UInt8} {number : ℤ} (read : stoi text = .ok number)
    (positive : 0 < number) :
    ∃ reading : NumberReading, reading.text = text ∧ (reading.value : ℤ) = number := by
  -- The parts of the text are those that the function itself computes.
  let string := text.takeWhile (· ≠ 0)
  let trimmed := string.dropWhile isspace
  let sign := trimmed.head?.filter fun ch => ch = '-'.toUInt8 ∨ ch = '+'.toUInt8
  let unsigned := trimmed.drop sign.toList.length
  let digits := unsigned.takeWhile isdigit
  let signed : ℤ :=
    if sign = some '-'.toUInt8 then -(decimalValue digits : ℤ) else decimalValue digits
  have whole : string.takeWhile isspace ++ (sign.toList ++ (digits ++
      (unsigned.dropWhile isdigit ++ text.dropWhile (· ≠ 0)))) = text := by
    rw [← List.append_assoc digits, List.takeWhile_append_dropWhile,
      ← List.append_assoc sign.toList, filter_head_append, ← List.append_assoc,
      List.takeWhile_append_dropWhile, List.takeWhile_append_dropWhile]
  change (if digits.isEmpty then .error StoiError.invalidArgument
    else if signed < -2 ^ 31 ∨ 2 ^ 31 - 1 < signed then .error StoiError.outOfRange
    else .ok signed) = Except.ok number at read
  split at read
  · exact absurd read (by simp)
  rename_i some
  split at read
  · exact absurd read (by simp)
  have same := Except.ok.inj read
  have notMinus : sign ≠ Option.some '-'.toUInt8 := by
    intro minus
    rw [show signed = -(decimalValue digits : ℤ) from if_pos minus] at same
    omega
  rw [show signed = decimalValue digits from if_neg notMinus] at same
  exact ⟨{
    blanks := string.takeWhile isspace
    sign := sign.toList
    digits := digits
    ignored := unsigned.dropWhile isdigit ++ text.dropWhile (· ≠ 0)
    blanks_form := fun ch member => List.mem_takeWhile_imp member
    sign_form := toList_sign rfl notMinus
    digits_some := by simpa using some
    digits_form := fun ch member => List.mem_takeWhile_imp member
    ignored_form := head_behind_digits unsigned text }, whole, same⟩

/-- Digits alone are read. -/
theorem exists_reading_of_digits {digits : List UInt8} (some : digits ≠ [])
    (all : ∀ ch ∈ digits, isdigit ch = true) : ∃ reading : NumberReading,
      reading.text = digits ∧ reading.value = decimalValue digits ∧ ':'.toUInt8 ∉ reading.text := by
  refine ⟨{
    blanks := []
    sign := []
    digits := digits
    ignored := []
    blanks_form := fun ch member => absurd member List.not_mem_nil
    sign_form := .inl rfl
    digits_some := some
    digits_form := all
    ignored_form := fun ch first => absurd first (by simp) }, List.append_nil digits, rfl, ?_⟩
  intro colon
  exact (isdigit_plain _ (all _ (List.append_nil digits ▸ colon))).2.2.2 rfl

/-- A text that is digits alone has no other parts. -/
theorem NumberReading.alone {reading : NumberReading}
    (all : ∀ ch ∈ reading.text, isdigit ch = true) :
    reading.blanks = [] ∧ reading.sign = [] ∧ reading.ignored = [] := by
  rw [text, List.forall_mem_append, List.forall_mem_append, List.forall_mem_append] at all
  obtain ⟨blanks, sign, _, ignored⟩ := all
  refine ⟨?_, ?_, ?_⟩
  · cases first : reading.blanks with
    | nil => rfl
    | cons ch rest =>
      have member : ch ∈ reading.blanks := first ▸ List.mem_cons_self
      have notDigit := (isspace_plain ch (reading.blanks_form ch member)).2
      exact absurd (blanks ch member) (by simp [notDigit])
  · rcases reading.sign_form with none | plus
    · exact none
    · exact absurd (sign '+'.toUInt8 (plus ▸ List.mem_cons_self)) (by decide)
  · cases first : reading.ignored with
    | nil => rfl
    | cons ch rest =>
      have notDigit := reading.ignored_form ch (by rw [first]; rfl)
      exact absurd (ignored ch (first ▸ List.mem_cons_self)) (by simp [notDigit])

/-! ### Addresses -/

/-- A host, a colon and the digits of a port. -/
def IsAddress (server : List UInt8) : Prop :=
  ∃ host digits : List UInt8, server = host ++ ':'.toUInt8 :: digits ∧ host ≠ [] ∧
    digits ≠ [] ∧ (∀ ch ∈ digits, isdigit ch = true) ∧
    1 ≤ decimalValue digits ∧ decimalValue digits ≤ 65535

/-- What stands behind the last colon is read as a port, although it is more than its digits. -/
def LooselyWritten (server : List UInt8) : Prop :=
  ∃ (host : List UInt8) (reading : NumberReading),
    server = host ++ ':'.toUInt8 :: reading.text ∧ ':'.toUInt8 ∉ reading.text ∧ host ≠ [] ∧
    1 ≤ reading.value ∧ reading.value ≤ 65535 ∧
    (reading.blanks ≠ [] ∨ reading.sign ≠ [] ∨ reading.ignored ≠ [])

namespace ProxyConfig

variable {config : ProxyConfig} {host port : List UInt8}

theorem getIp_of_split (split : config.proxyServer = host ++ ':'.toUInt8 :: port)
    (last : ':'.toUInt8 ∉ port) : config.getIp = host := by
  rw [getIp, split, rfindChar_eq_some last]
  cases host with
  | nil => rfl
  | cons ch rest => exact List.take_left

theorem getPort_of_split (split : config.proxyServer = host ++ ':'.toUInt8 :: port)
    (last : ':'.toUInt8 ∉ port) : config.getPort =
      match stoi port with
      | .ok number => if number > 0 ∧ number ≤ 65535 then number else 0
      | .error _ => 0 := by
  have behind : (host ++ ':'.toUInt8 :: port).drop (host.length + 1) = port := by simp
  rw [getPort, split, rfindChar_eq_some last]
  simp only [behind]
  split
  · rename_i empty
    have none : port = [] := by simpa using empty
    rw [none]
    rfl
  · rfl

/-- The addresses that are taken for valid. -/
theorem isValid_iff_reading : config.isValid = true ↔
    ∃ (host : List UInt8) (reading : NumberReading),
      config.proxyServer = host ++ ':'.toUInt8 :: reading.text ∧ ':'.toUInt8 ∉ reading.text ∧
      host ≠ [] ∧ 1 ≤ reading.value ∧ reading.value ≤ 65535 := by
  rw [isValid, Bool.and_eq_true, Bool.not_eq_true', List.isEmpty_eq_false_iff, decide_eq_true_iff]
  constructor
  · rintro ⟨hostGiven, portGiven⟩
    have colon : ':'.toUInt8 ∈ config.proxyServer := by
      by_contra absent
      rw [getIp, rfindChar_eq_none absent] at hostGiven
      exact hostGiven rfl
    obtain ⟨host, port, split, last⟩ := exists_append_cons_last colon
    rw [getIp_of_split split last] at hostGiven
    rw [getPort_of_split split last] at portGiven
    cases read : stoi port with
    | error _ =>
      rw [read] at portGiven
      exact absurd rfl portGiven
    | ok number =>
      rw [read] at portGiven
      obtain ⟨positive, bounded⟩ : number > 0 ∧ number ≤ 65535 := by
        by_contra outside
        exact portGiven (if_neg outside)
      obtain ⟨reading, rfl, rfl⟩ := exists_reading read positive
      exact ⟨host, reading, split, last, hostGiven, by omega, by omega⟩
  · rintro ⟨host, reading, split, last, hostGiven, positive, bounded⟩
    rw [getIp_of_split split last, getPort_of_split split last, reading.stoi_text (by omega)]
    refine ⟨hostGiven, ?_⟩
    change (if (reading.value : ℤ) > 0 ∧ (reading.value : ℤ) ≤ 65535 then _ else _) ≠ _
    rw [if_pos (by omega)]
    omega

theorem isValid_of_isAddress (address : IsAddress config.proxyServer) : config.isValid = true := by
  obtain ⟨host, digits, split, hostGiven, some, all, positive, bounded⟩ := address
  obtain ⟨reading, rfl, same, last⟩ := exists_reading_of_digits some all
  exact isValid_iff_reading.mpr ⟨host, reading, split, last, hostGiven, by omega, by omega⟩

/-- A port that is set comes back. -/
theorem getPort_setProxy {number : ℤ} (positive : 1 ≤ number) (bounded : number ≤ 65535)
    (type : ProxyType) : (config.setProxy host number type).getIp = host ∧
      (config.setProxy host number type).getPort = number := by
  have written : number.repr = number.toNat.repr := by
    rw [Int.repr_eq_if, if_pos (by omega)]
  have some : ascii number.toNat.repr ≠ [] := by
    rw [ascii, Nat.toList_repr, Ne, List.map_eq_nil_iff]
    exact Nat.toDigits_ne_nil
  obtain ⟨reading, text, value, last⟩ :=
    exists_reading_of_digits some (isdigit_of_mem_repr number.toNat)
  rw [decimalValue_repr] at value
  have split : (config.setProxy host number type).proxyServer =
      host ++ ':'.toUInt8 :: reading.text := by
    rw [text, ← written]
    exact List.append_assoc _ _ _
  rw [getIp_of_split split last, getPort_of_split split last, reading.stoi_text (by omega), value]
  have same : (number.toNat : ℤ) = number := Int.toNat_of_nonneg (by omega)
  refine ⟨rfl, ?_⟩
  rw [same]
  exact if_pos ⟨by omega, bounded⟩

theorem credentials_of_split {username password : List UInt8}
    (split : config.proxyAuth = username ++ ':'.toUInt8 :: password)
    (first : ':'.toUInt8 ∉ username) :
    config.getUsername = username ∧ config.getPassword = password := by
  have found : findChar config.proxyAuth ':'.toUInt8 0 = some username.length := by
    rw [split, findChar_eq_some (List.drop_zero ..) first, Nat.zero_add]
  have behind : (username ++ ':'.toUInt8 :: password).drop (username.length + 1) = password := by
    simp
  refine ⟨?_, ?_⟩
  · rw [getUsername, found, split]
    exact List.take_left
  · rw [getPassword, found, split]
    dsimp only
    rw [behind]
    split
    · rename_i empty
      have none : password = [] := by simpa using empty
      exact none.symm
    · rfl

/-- Credentials that are set come back unless the username holds a colon. -/
theorem credentials_setProxyAuth_iff {username password : List UInt8} :
    (config.setProxyAuth username password).getUsername = username ∧
        (config.setProxyAuth username password).getPassword = password ↔
      ':'.toUInt8 ∉ username := by
  have joined : (config.setProxyAuth username password).proxyAuth =
      username ++ ':'.toUInt8 :: password := List.append_assoc _ _ _
  refine ⟨?_, credentials_of_split joined⟩
  rintro ⟨same, _⟩ colon
  obtain ⟨front, rest, cut, first⟩ := List.eq_append_cons_of_mem colon
  have split : (config.setProxyAuth username password).proxyAuth =
      front ++ ':'.toUInt8 :: (rest ++ ':'.toUInt8 :: password) := by
    rw [joined, cut, List.append_assoc, List.cons_append]
  have short := (credentials_of_split split first).1.symm.trans same
  have longer := congrArg List.length (short.trans cut)
  rw [List.length_append, List.length_cons] at longer
  omega

end ProxyConfig

/-- An address passes when it is a host, a colon and a port, and so does one that is loosely
written. What is set by host and port comes back, whatever colons the host holds. -/
theorem valid_address_iff (config : ProxyConfig) :
    ((config.isValid = true ↔ IsAddress config.proxyServer) ↔
      ¬ LooselyWritten config.proxyServer) ∧
    ∀ (host : List UInt8) (port : ℤ) (type : ProxyType), host ≠ [] → 1 ≤ port → port ≤ 65535 →
      (config.setProxy host port type).getIp = host ∧
      (config.setProxy host port type).getPort = port := by
  refine ⟨⟨?_, ?_⟩, fun _ _ type _ positive bounded =>
    ProxyConfig.getPort_setProxy positive bounded type⟩
  · rintro same ⟨host, reading, split, last, hostGiven, positive, bounded, more⟩
    have valid := ProxyConfig.isValid_iff_reading.mpr
      ⟨host, reading, split, last, hostGiven, positive, bounded⟩
    obtain ⟨otherHost, digits, otherSplit, _, _, all, _⟩ := same.mp valid
    have noColon : ':'.toUInt8 ∉ digits := fun colon => (isdigit_plain _ (all _ colon)).2.2.2 rfl
    obtain ⟨_, rfl⟩ := eq_of_append_cons_last last noColon (split.symm.trans otherSplit)
    obtain ⟨blanks, sign, ignored⟩ := reading.alone all
    rcases more with given | given | given
    · exact given blanks
    · exact given sign
    · exact given ignored
  · intro strict
    refine ⟨fun valid => ?_, ProxyConfig.isValid_of_isAddress⟩
    obtain ⟨host, reading, split, last, hostGiven, positive, bounded⟩ :=
      ProxyConfig.isValid_iff_reading.mp valid
    have alone : reading.blanks = [] ∧ reading.sign = [] ∧ reading.ignored = [] := by
      by_contra more
      rw [not_and_or, not_and_or] at more
      exact strict ⟨host, reading, split, last, hostGiven, positive, bounded, more⟩
    have text : reading.text = reading.digits := by
      rw [NumberReading.text, alone.1, alone.2.1, alone.2.2, List.append_nil, List.nil_append,
        List.nil_append]
    exact ⟨host, reading.digits, text ▸ split, hostGiven, reading.digits_some,
      reading.digits_form, positive, bounded⟩

/-- A host that is an IPv6 address comes back. -/
theorem valid_address_iff_loopback :
    (({} : ProxyConfig).setProxy (ascii "::1") 8080 .proxyHttp).getIp = ascii "::1" ∧
      (({} : ProxyConfig).setProxy (ascii "::1") 8080 .proxyHttp).getPort = 8080 :=
  (valid_address_iff {}).2 (ascii "::1") 8080 .proxyHttp (by decide) (by decide) (by decide)

/-- Letters behind the digits of the port are not looked at. -/
theorem letters_behind_port_pass :
    ({ proxyServer := ascii "proxy:80abc" } : ProxyConfig).isValid = true ∧
      ¬ IsAddress (ascii "proxy:80abc") := by
  refine ⟨by decide +kernel, ?_⟩
  rintro ⟨host, digits, split, _, _, all, _⟩
  have noColon : ':'.toUInt8 ∉ digits := fun colon => (isdigit_plain _ (all _ colon)).2.2.2 rfl
  have here : ascii "proxy:80abc" = ascii "proxy" ++ ':'.toUInt8 :: ascii "80abc" := by
    decide +kernel
  obtain ⟨_, rfl⟩ := eq_of_append_cons_last (by decide +kernel) noColon (here.symm.trans split)
  exact absurd (all 'a'.toUInt8 (by decide +kernel)) (by decide)

end Kurlyk.Http
