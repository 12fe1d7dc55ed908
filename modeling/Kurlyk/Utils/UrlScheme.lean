/-
This file models how the library takes the scheme off a URL: `extract_protocol` and
`remove_ws_prefix` of `utils/url_utils.hpp`, `remove_http_prefix` of `utils/http_utils.hpp`, and
what `SimpleWebSocketClientAdapter` hands to its backend.

The two removing functions are one function of two prefixes. It searches the whole URL for the
longer prefix and only then for the shorter one, so a URL with the shorter prefix loses its own
scheme exactly when the longer prefix stands nowhere in the rest of it.
-/

import Kurlyk.Lib.Text
import Kurlyk.Utils.Characters

namespace Kurlyk.Utils

open Text

/-! ### The model -/

/-- `extract_protocol`. -/
def extractProtocol (url : List UInt8) : List UInt8 :=
  match find url (ascii "://") 0 with
  | none => []
  | some pos => url.take pos

/-- `url.compare(pos, pattern.length(), pattern) == 0` at a position in the URL. -/
def standsAt (url pattern : List UInt8) (pos : ℕ) : Bool :=
  (url.drop pos).take pattern.length = pattern

/-- The body that `remove_ws_prefix` and `remove_http_prefix` share. -/
def removePrefix (securePrefix plainPrefix url : List UInt8) : List UInt8 :=
  match (find url securePrefix 0).or (find url plainPrefix 0) with
  | none => url
  | some pos =>
    if standsAt url securePrefix pos then erase url pos securePrefix.length
    else if standsAt url plainPrefix pos then erase url pos plainPrefix.length
    else url

def removeWsPrefix (url : List UInt8) : List UInt8 :=
  removePrefix (ascii "wss://") (ascii "ws://") url

def removeHttpPrefix (url : List UInt8) : List UInt8 :=
  removePrefix (ascii "https://") (ascii "http://") url

/-- The client that `create_client` makes, with the address it is given. -/
inductive CreatedClient where
  | wssClient (serverPortPath : List UInt8)
  | wsClient (serverPortPath : List UInt8)
deriving DecidableEq

def minUrlSize : ℕ := 6

/-- The client that `init_websocket` asks for. -/
def initWebsocket (url : List UInt8) : Option CreatedClient :=
  if url.length < minUrlSize then none
  else if extractProtocol url = ascii "wss" then some (.wssClient (removeWsPrefix url))
  else if extractProtocol url = ascii "ws" then some (.wsClient (removeWsPrefix url))
  else none

/-! ### Two prefixes -/

/-- What the two prefixes are to each other: the one that is searched first is longer, and no
occurrence of it begins in the other one. -/
structure Prefixes (securePrefix plainPrefix : List UInt8) : Prop where
  longer : plainPrefix.length < securePrefix.length
  clear : Clear securePrefix plainPrefix
  apart : ¬ securePrefix <+: plainPrefix ∧ ¬ plainPrefix <+: securePrefix

section Prefixes

variable {securePrefix plainPrefix : List UInt8}

/-- A pattern is found at the beginning of a text that begins with it. -/
theorem find_self (pattern rest : List UInt8) : find (pattern ++ rest) pattern 0 = some 0 := by
  rw [find_zero]
  exact @occurrence_eq_some _ _ pattern [] rest fun _ _ _ => Nat.zero_le _

theorem standsAt_append (front pattern rest : List UInt8) :
    standsAt (front ++ pattern ++ rest) pattern front.length = true := by
  rw [standsAt, List.append_assoc, List.drop_left, List.take_left]
  exact decide_eq_true rfl

theorem erase_append (front pattern rest : List UInt8) :
    erase (front ++ pattern ++ rest) front.length pattern.length = front ++ rest := by
  rw [erase, ← List.length_append, List.drop_left, List.append_assoc, List.take_left]

/-- The longer prefix is taken off the beginning. -/
theorem removePrefix_secure (rest : List UInt8) :
    removePrefix securePrefix plainPrefix (securePrefix ++ rest) = rest := by
  have stands := standsAt_append [] securePrefix rest
  have erased := erase_append [] securePrefix rest
  rw [List.nil_append, List.length_nil] at stands erased
  rw [removePrefix, find_self, Option.some_or]
  dsimp only
  rw [stands, if_pos rfl, erased, List.nil_append]

/-- Where the longer prefix stands nowhere, the shorter one is taken off the beginning. -/
theorem removePrefix_plain (prefixes : Prefixes securePrefix plainPrefix) {rest : List UInt8}
    (absent : ¬ securePrefix <:+: rest) :
    removePrefix securePrefix plainPrefix (plainPrefix ++ rest) = rest := by
  have nowhere : find (plainPrefix ++ rest) securePrefix 0 = none := by
    rw [find_zero, occurrence_of_clear prefixes.clear, (occurrence_eq_none_iff rest).mpr absent]
    rfl
  have notSecure : standsAt (plainPrefix ++ rest) securePrefix 0 = false := by
    refine decide_eq_false fun stands => ?_
    have starts := List.take_prefix securePrefix.length (plainPrefix ++ rest)
    rw [← List.drop_zero (l := plainPrefix ++ rest), stands, List.drop_zero] at starts
    rcases List.prefix_or_prefix_of_prefix starts (List.prefix_append plainPrefix rest)
      with shorter | longer
    · exact prefixes.apart.1 shorter
    · exact prefixes.apart.2 longer
  have stands := standsAt_append [] plainPrefix rest
  have erased := erase_append [] plainPrefix rest
  rw [List.nil_append, List.length_nil] at stands erased
  rw [removePrefix, nowhere, find_self, Option.none_or]
  dsimp only
  rw [notSecure, if_neg (by decide), stands, if_pos rfl, erased, List.nil_append]

/-- Where the longer prefix stands somewhere behind the shorter one, it is removed there. -/
theorem removePrefix_inside (prefixes : Prefixes securePrefix plainPrefix) {rest : List UInt8}
    (present : securePrefix <:+: rest) :
    ∃ front behind, rest = front ++ securePrefix ++ behind ∧
      removePrefix securePrefix plainPrefix (plainPrefix ++ rest) =
        plainPrefix ++ front ++ behind := by
  cases found : occurrence securePrefix rest with
  | none => exact absurd present ((occurrence_eq_none_iff rest).mp found)
  | some position =>
    obtain ⟨front, behind, rfl, rfl, _⟩ := split_of_occurrence found
    have somewhere : find (plainPrefix ++ (front ++ securePrefix ++ behind)) securePrefix 0 =
        some (plainPrefix ++ front).length := by
      rw [find_zero, occurrence_of_clear prefixes.clear, found, List.length_append]
      rfl
    refine ⟨front, behind, rfl, ?_⟩
    rw [removePrefix, somewhere, Option.some_or]
    dsimp only
    rw [← List.append_assoc, ← List.append_assoc, standsAt_append, if_pos rfl, erase_append]

/-- The shorter prefix is taken off exactly when the longer one does not stand behind it. -/
theorem removePrefix_plain_iff (prefixes : Prefixes securePrefix plainPrefix) (rest : List UInt8) :
    removePrefix securePrefix plainPrefix (plainPrefix ++ rest) = rest ↔
      ¬ securePrefix <:+: rest := by
  refine ⟨fun removed present => ?_, removePrefix_plain prefixes⟩
  obtain ⟨front, behind, split, kept⟩ := removePrefix_inside prefixes present
  -- What is left is shorter than it should be.
  have lengths := congrArg List.length (kept.symm.trans removed)
  have total := congrArg List.length split
  have longer := prefixes.longer
  rw [List.length_append, List.length_append] at lengths total
  omega

end Prefixes

theorem wsPrefixes : Prefixes (ascii "wss://") (ascii "ws://") :=
  ⟨by decide +kernel, by decide +kernel, by decide +kernel⟩

theorem httpPrefixes : Prefixes (ascii "https://") (ascii "http://") :=
  ⟨by decide +kernel, by decide +kernel, by decide +kernel⟩

/-! ### The address that the backend gets -/

theorem extractProtocol_append {scheme : List UInt8} (clear : Clear (ascii "://") scheme)
    (rest : List UInt8) : extractProtocol (scheme ++ ascii "://" ++ rest) = scheme := by
  have found : find (scheme ++ ascii "://" ++ rest) (ascii "://") 0 = some scheme.length := by
    have first := find_self (ascii "://") rest
    rw [find_zero] at first
    rw [find_zero, List.append_assoc, occurrence_of_clear clear, first]
    rfl
  rw [extractProtocol, found]
  dsimp only
  rw [List.append_assoc, List.take_left]

/-- A URL with the scheme `ws` is long enough when it has anything behind the scheme. -/
theorem initWebsocket_ws (rest : List UInt8) :
    initWebsocket (ascii "ws://" ++ rest) =
      if rest.isEmpty then none
      else some (.wsClient (removeWsPrefix (ascii "ws://" ++ rest))) := by
  have protocol : extractProtocol (ascii "ws://" ++ rest) = ascii "ws" :=
    extractProtocol_append (by decide +kernel : Clear (ascii "://") (ascii "ws")) rest
  have five : (ascii "ws://").length = 5 := by decide +kernel
  rw [initWebsocket, protocol, List.length_append, five, minUrlSize,
    if_neg (by decide +kernel : ascii "ws" ≠ ascii "wss"), if_pos rfl]
  cases rest with
  | nil => rfl
  | cons character more =>
    rw [List.length_cons, if_neg (by omega), if_neg (by simp)]

theorem initWebsocket_wss (rest : List UInt8) :
    initWebsocket (ascii "wss://" ++ rest) = some (.wssClient rest) := by
  have protocol : extractProtocol (ascii "wss://" ++ rest) = ascii "wss" :=
    extractProtocol_append (by decide +kernel : Clear (ascii "://") (ascii "wss")) rest
  have six : (ascii "wss://").length = 6 := by decide +kernel
  rw [initWebsocket, protocol, List.length_append, six, minUrlSize, if_neg (by simp), if_pos rfl,
    removeWsPrefix, removePrefix_secure]

/-- A URL loses its own scheme, and the backend gets the rest of it, exactly when the longer prefix
does not stand behind the shorter one. -/
theorem own_scheme_removed_iff (rest : List UInt8) :
    (removeWsPrefix (ascii "ws://" ++ rest) = rest ↔ ¬ ascii "wss://" <:+: rest) ∧
      removeWsPrefix (ascii "wss://" ++ rest) = rest ∧
      (removeHttpPrefix (ascii "http://" ++ rest) = rest ↔ ¬ ascii "https://" <:+: rest) ∧
      removeHttpPrefix (ascii "https://" ++ rest) = rest ∧
      ((initWebsocket (ascii "ws://" ++ rest) =
        if rest.isEmpty then none else some (.wsClient rest)) ↔ ¬ ascii "wss://" <:+: rest) ∧
      initWebsocket (ascii "wss://" ++ rest) = some (.wssClient rest) := by
  refine ⟨removePrefix_plain_iff wsPrefixes rest, removePrefix_secure rest,
    removePrefix_plain_iff httpPrefixes rest, removePrefix_secure rest, ?_, initWebsocket_wss rest⟩
  rw [initWebsocket_ws]
  cases rest with
  | nil => exact iff_of_true rfl (by decide +kernel)
  | cons character more =>
    rw [if_neg (by simp), if_neg (by simp), Option.some.injEq, CreatedClient.wsClient.injEq]
    exact removePrefix_plain_iff wsPrefixes (character :: more)

/-- A URL in the query of another one loses its scheme in place of that one. -/
theorem inner_scheme_removed :
    removeWsPrefix (ascii "ws://example.com/?to=wss://inner.org") =
        ascii "ws://example.com/?to=inner.org" ∧
      removeHttpPrefix (ascii "http://example.com/?to=https://inner.org") =
        ascii "http://example.com/?to=inner.org" ∧
      initWebsocket (ascii "ws://example.com/?to=wss://inner.org") =
        some (.wsClient (ascii "ws://example.com/?to=inner.org")) ∧
      ¬ ∀ rest, removeWsPrefix (ascii "ws://" ++ rest) = rest := by
  refine ⟨by decide +kernel, by decide +kernel, by decide +kernel, fun removes => ?_⟩
  exact absurd (removes (ascii "example.com/?to=wss://inner.org")) (by decide +kernel)

end Kurlyk.Utils
