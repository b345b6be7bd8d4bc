import McpTracer.Foundation.Base64
import McpTracer.Proxy.RequestHeaders

/-! Header values for names and arguments.

What a header can carry is sent as it is, unless it looks encoded, and the rest is encoded. So a value that
looks encoded is, and reading it gives back what was written.
-/

set_option autoImplicit false

namespace McpTracer.Proxy.HttpReplay
open McpTracer.Foundation

/-- What is read off a value: what it encodes, if it has the form of an encoded one. -/
def encodedBody (value : List Char) : Option (List Char) :=
  if "=?base64?".toList.isPrefixOf value then
    let rest := value.drop 9
    if "?=".toList.isSuffixOf rest then some (rest.take (rest.length - 2)) else none
  else none

def decodeMcpHeaderValue (decode : String → Option String) (value : String) : Option String :=
  match encodedBody value.toList with
  | some body => decode (String.ofList body)
  | none => some value

/-- The characters that a header value may have. -/
def isHeaderChar (c : Char) : Bool := (32 ≤ c.toNat && c.toNat ≤ 126) || c = '\t'

/-- A value that no transport changes: it is there, it has only the characters of headers, and no blank at an end. -/
structure Sendable (value : String) : Prop where
  filled : value ≠ ""
  allowed : ∀ c ∈ value.toList, isHeaderChar c = true
  first : ∀ c, value.toList.head? = some c → isBlank c = false
  last : ∀ c, value.toList.getLast? = some c → isBlank c = false

/-- What the library is documented to do: its encoding can be read back and has only printable characters, and its
header values have the characters of headers. -/
structure Encodes (library : HttpLibrary) (decode : String → Option String) : Prop where
  inverse : ∀ value, decode (library.base64 value) = some value
  printable : ∀ value, ∀ c ∈ (library.base64 value).toList, 33 ≤ c.toNat ∧ c.toNat ≤ 126
  accepted : ∀ value : String, (∀ c ∈ value.toList, isHeaderChar c = true) → library.headerValue value = true

theorem encodedBody_eq_some_iff {value body : List Char} :
    encodedBody value = some body ↔ value = "=?base64?".toList ++ body ++ "?=".toList := by
  constructor
  · intro found
    rw [encodedBody] at found
    split at found
    case isTrue begins =>
      obtain ⟨rest, rfl⟩ := List.isPrefixOf_iff_prefix.1 begins
      have behind : ("=?base64?".toList ++ rest).drop 9 = rest := List.drop_left' rfl
      rw [behind] at found
      dsimp only at found
      split at found
      case isTrue ends =>
        obtain ⟨front, rfl⟩ := List.isSuffixOf_iff_suffix.1 ends
        have inner : (front ++ "?=".toList).take ((front ++ "?=".toList).length - 2) = front :=
          List.take_left' (by simp)
        rw [inner] at found
        rw [Option.some.inj found, List.append_assoc]
      case isFalse => cases found
    case isFalse => cases found
  · rintro rfl
    have behind : ("=?base64?".toList ++ body ++ "?=".toList).drop 9 = body ++ "?=".toList := by
      rw [List.append_assoc]
      exact List.drop_left' rfl
    have inner : (body ++ "?=".toList).take ((body ++ "?=".toList).length - 2) = body := List.take_left' (by simp)
    rw [encodedBody, if_pos (by simp), behind]
    dsimp only
    rw [if_pos (by simp [List.isSuffixOf_iff_suffix]), inner]

/-! ## What is sent -/

section
variable {library : HttpLibrary} {decode : String → Option String}

/-- A plain value is sendable and does not look encoded. -/
theorem encodeMcpHeaderValue_cases (library : HttpLibrary) (value : String) :
    (Sendable value ∧ encodedBody value.toList = none ∧ encodeMcpHeaderValue library value = value) ∨
      encodeMcpHeaderValue library value = "=?base64?" ++ library.base64 value ++ "?=" := by
  unfold encodeMcpHeaderValue
  dsimp only
  split
  case isTrue plain =>
    simp only [Bool.and_eq_true, Bool.not_eq_eq_eq_not, Bool.not_true, List.isEmpty_eq_false_iff,
      List.all_eq_true] at plain
    obtain ⟨⟨⟨⟨filled, allowed⟩, first⟩, last⟩, unlike⟩ := plain
    refine .inl ⟨⟨?_, ?_, ?_, ?_⟩, ?_, rfl⟩
    · rintro rfl
      exact filled rfl
    · exact allowed
    · intro c head
      simpa [head] using first
    · intro c ends
      simpa [ends] using last
    · by_contra looks
      obtain ⟨body, found⟩ := Option.ne_none_iff_exists'.1 looks
      have form := encodedBody_eq_some_iff.1 found
      have sentinel : ("=?base64?".toList.isPrefixOf value.toList && "?=".toList.isSuffixOf value.toList) = true := by
        rw [form, Bool.and_eq_true, List.isPrefixOf_iff_prefix, List.isSuffixOf_iff_suffix, List.append_assoc]
        exact ⟨List.prefix_append _ _, (List.suffix_append _ _).trans (List.suffix_append _ _)⟩
      rw [sentinel] at unlike
      cases unlike
  case isFalse => exact .inr rfl

theorem toList_encoded (body : String) :
    ("=?base64?" ++ body ++ "?=").toList = "=?base64?".toList ++ body.toList ++ "?=".toList := by
  rw [String.toList_append, String.toList_append]

theorem sendable_encoded (encodes : Encodes library decode) (value : String) :
    Sendable ("=?base64?" ++ library.base64 value ++ "?=") where
  filled := by
    intro none
    have empty := congrArg String.toList none
    rw [toList_encoded] at empty
    simp at empty
  allowed := by
    have fixed : ∀ c ∈ "=?base64?".toList ++ "?=".toList, isHeaderChar c = true :=
      List.all_eq_true.1 (by decide : ("=?base64?".toList ++ "?=".toList).all isHeaderChar = true)
    intro c member
    rw [toList_encoded, List.mem_append, List.mem_append] at member
    rcases member with (member | member) | member
    · exact fixed c (List.mem_append_left _ member)
    · have bounds := encodes.printable value c member
      simp only [isHeaderChar, Bool.or_eq_true, Bool.and_eq_true, decide_eq_true_eq]
      omega
    · exact fixed c (List.mem_append_right _ member)
  first := by
    intro c head
    rw [toList_encoded] at head
    obtain rfl : '=' = c := by simpa using head
    rfl
  last := by
    intro c ends
    have closing : "?=".toList = ['?'] ++ ['='] := rfl
    rw [toList_encoded, closing, ← List.append_assoc, List.getLast?_concat] at ends
    obtain rfl := Option.some.inj ends
    rfl

theorem sendable_encodeMcpHeaderValue (encodes : Encodes library decode) (value : String) :
    Sendable (encodeMcpHeaderValue library value) := by
  rcases encodeMcpHeaderValue_cases library value with ⟨sendable, -, same⟩ | encoded
  · rwa [same]
  · rw [encoded]
    exact sendable_encoded encodes value

theorem decode_encodeMcpHeaderValue (encodes : Encodes library decode) (value : String) :
    decodeMcpHeaderValue decode (encodeMcpHeaderValue library value) = some value := by
  rcases encodeMcpHeaderValue_cases library value with ⟨-, plain, same⟩ | encoded
  · rw [same, decodeMcpHeaderValue, plain]
  · have body : encodedBody ("=?base64?" ++ library.base64 value ++ "?=").toList = some (library.base64 value).toList :=
      encodedBody_eq_some_iff.2 (toList_encoded _)
    rw [encoded, decodeMcpHeaderValue, body]
    dsimp only
    rw [String.ofList_toList, encodes.inverse]

theorem headerValue_encodeMcpHeaderValue (encodes : Encodes library decode) (value : String) :
    library.headerValue (encodeMcpHeaderValue library value) = true :=
  encodes.accepted _ (sendable_encodeMcpHeaderValue encodes value).allowed

/-- Every text can be sent in a header and read back, so no two texts are sent as one. -/
theorem header_encoding_lossless (encodes : Encodes library decode) :
    (∀ value, Sendable (encodeMcpHeaderValue library value) ∧
      library.headerValue (encodeMcpHeaderValue library value) = true ∧
      decodeMcpHeaderValue decode (encodeMcpHeaderValue library value) = some value) ∧
    Function.Injective (encodeMcpHeaderValue library) := by
  refine ⟨fun value => ⟨sendable_encodeMcpHeaderValue encodes value, headerValue_encodeMcpHeaderValue encodes value,
    decode_encodeMcpHeaderValue encodes value⟩, fun value other same => ?_⟩
  have read := decode_encodeMcpHeaderValue encodes value
  rw [same, decode_encodeMcpHeaderValue encodes other] at read
  exact (Option.some.inj read).symm

end

/-! ## A library -/

def encodeText (text : String) : String := String.ofList (Base64.encode text.toUTF8.data.toList)

def decodeText (text : String) : Option String :=
  (Base64.decode text.toList).bind fun bytes => String.fromUTF8? bytes.toByteArray

def maxHeaderNameLength : Nat := 65535

/-- A library that encodes, and that takes the header names and values of the standard up to a length. -/
def standardLibrary : HttpLibrary where
  headerName := fun name =>
    if name ≠ "" ∧ isHttpToken name ∧ name.length ≤ maxHeaderNameLength then some name.toLower else none
  headerValue := fun value => value.toList.all isHeaderChar
  base64 := encodeText

theorem standardLibrary_encodes : Encodes standardLibrary decodeText where
  inverse := by
    intro value
    change (Base64.decode (String.ofList (Base64.encode value.toUTF8.data.toList)).toList).bind _ = _
    have bytes : value.toUTF8.data.toList.toByteArray = value.toUTF8 := by
      apply ByteArray.ext
      rw [List.data_toByteArray, Array.toArray_toList]
    rw [String.toList_ofList, Base64.decode_encode, Option.bind_some, bytes, String.fromUTF8?]
    exact dif_pos value.isValidUTF8
  printable := by
    intro value c member
    change c ∈ (String.ofList _).toList at member
    rw [String.toList_ofList] at member
    have bounds := Base64.encode_printable _ c member
    omega
  accepted := by
    intro value allowed
    exact List.all_eq_true.2 allowed

theorem header_encoding_lossless_standard :
    (∀ value, Sendable (encodeMcpHeaderValue standardLibrary value) ∧
      standardLibrary.headerValue (encodeMcpHeaderValue standardLibrary value) = true ∧
      decodeMcpHeaderValue decodeText (encodeMcpHeaderValue standardLibrary value) = some value) ∧
    Function.Injective (encodeMcpHeaderValue standardLibrary) := header_encoding_lossless standardLibrary_encodes

example : encodeMcpHeaderValue standardLibrary " padded " = "=?base64?IHBhZGRlZCA=?=" := by decide +kernel

end McpTracer.Proxy.HttpReplay
