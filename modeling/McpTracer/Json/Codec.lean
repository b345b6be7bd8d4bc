import McpTracer.Json.Value

/-! What a JSON text library promises, and a compact text form that keeps the promise.

The library itself is a parameter: decoding may accept any text and rounds
floating-point literals, so a round trip is promised only for trees without
them and within the nesting limit of the decoder. Printing is injective.
-/

set_option autoImplicit false

namespace McpTracer.Json

/-- The nesting at which the decoder refuses a text. -/
def recursionLimit : Nat := 128

/-- A decoder and a printer for JSON texts, with the documented laws. -/
structure Codec where
  fromStr : String → Option Value
  toString : Value → String
  /-- Decoded objects are maps: keys are unique and sorted. -/
  fromStr_wellFormed : ∀ {text : String} {v : Value}, fromStr text = some v → v.wellFormed = true
  /-- Printing and decoding is the identity below the recursion limit and away from doubles. -/
  fromStr_toString : ∀ {v : Value}, v.wellFormed = true → v.depth < recursionLimit →
    v.floatFree = true → fromStr (toString v) = some v
  /-- Different trees print differently; doubles print shortest round-trip digits. -/
  toString_injective : ∀ {v w : Value}, v.wellFormed = true → w.wellFormed = true →
    toString v = toString w → v = w
  /-- Unsigned integers print as their decimal digits. -/
  toString_posInt : ∀ n, toString (.number (.posInt n)) = String.ofList (Nat.toDigits 10 n.toNat)

/-! ## A compact text form -/

namespace Compact

def hexDigit (n : Nat) : Char := if n < 10 then Char.ofNat (48 + n) else Char.ofNat (87 + n)

def hexValue (c : Char) : Nat := if c.toNat < 58 then c.toNat - 48 else c.toNat - 87

def escapeChar (c : Char) : List Char :=
  if c = '"' then ['\\', '"']
  else if c = '\\' then ['\\', '\\']
  else if c = '\n' then ['\\', 'n']
  else if c = '\r' then ['\\', 'r']
  else if c = '\t' then ['\\', 't']
  else if c.toNat = 8 then ['\\', 'b']
  else if c.toNat = 12 then ['\\', 'f']
  else if c.toNat < 32 then ['\\', 'u', '0', '0', hexDigit (c.toNat / 16), hexDigit (c.toNat % 16)]
  else [c]

/-- One character of a string literal, escaped or plain. -/
def readChar : List Char → Option (Char × List Char)
  | [] => none
  | c :: rest =>
    if c = '\\' then
      match rest with
      | '"' :: rest => some ('"', rest)
      | '\\' :: rest => some ('\\', rest)
      | 'n' :: rest => some ('\n', rest)
      | 'r' :: rest => some ('\r', rest)
      | 't' :: rest => some ('\t', rest)
      | 'b' :: rest => some (Char.ofNat 8, rest)
      | 'f' :: rest => some (Char.ofNat 12, rest)
      | 'u' :: '0' :: '0' :: a :: b :: rest =>
          some (Char.ofNat (16 * hexValue a + hexValue b), rest)
      | _ => none
    else some (c, rest)

def quote (s : String) : List Char := '"' :: (s.toList.flatMap escapeChar ++ ['"'])

def readText : Nat → List Char → Option (List Char × List Char)
  | 0, _ => none
  | fuel + 1, cs =>
    if cs.head? = some '"' then some ([], cs.tail)
    else do
      let (c, rest) ← readChar cs
      let (text, rest) ← readText fuel rest
      return (c :: text, rest)

/-- Integers are decimal. A double is written by its bit pattern after a sign no number has. -/
def printNumber : Number → List Char
  | .posInt n => Nat.toDigits 10 n.toNat
  | .negInt n => '-' :: Nat.toDigits 10 (n.val + 1)
  | .float x => '+' :: Nat.toDigits 10 x.bits.toNat

def readDigits (cs : List Char) : Option (Nat × List Char) :=
  let digits := cs.takeWhile Char.isDigit
  if digits = [] then none else some (Nat.ofDigitChars 10 digits 0, cs.dropWhile Char.isDigit)

def readNumber : List Char → Option (Number × List Char)
  | '-' :: rest => do
      let (n, rest) ← readDigits rest
      if small : n - 1 < 2 ^ 63 then return (.negInt ⟨n - 1, small⟩, rest) else none
  | '+' :: rest => do
      let (n, rest) ← readDigits rest
      if finite : (BitVec.ofNat 64 n).extractLsb' 52 11 ≠ BitVec.allOnes 11 then
        return (.float ⟨BitVec.ofNat 64 n, finite⟩, rest)
      else none
  | cs => do
      let (n, rest) ← readDigits cs
      return (.posInt (UInt64.ofNat n), rest)

mutual
def print : Value → List Char
  | .null => "null".toList
  | .bool true => "true".toList
  | .bool false => "false".toList
  | .number n => printNumber n
  | .string s => quote s
  | .array [] => "[]".toList
  | .array (x :: xs) => '[' :: (print x ++ printItems xs)
  | .object [] => "{}".toList
  | .object ((k, x) :: fs) => '{' :: (quote k ++ ':' :: (print x ++ printFields fs))
def printItems : List Value → List Char
  | [] => [']']
  | x :: xs => ',' :: (print x ++ printItems xs)
def printFields : List (String × Value) → List Char
  | [] => ['}']
  | (k, x) :: fs => ',' :: (quote k ++ ':' :: (print x ++ printFields fs))
end

def readKey (cs : List Char) : Option (String × List Char) := do
  let (text, rest) ← if cs.head? = some '"' then readText cs.length cs.tail else none
  if rest.head? = some ':' then return (String.ofList text, rest.tail) else none

mutual
def read : Nat → List Char → Option (Value × List Char)
  | 0, _ => none
  | fuel + 1, cs =>
    match cs with
    | 'n' :: 'u' :: 'l' :: 'l' :: rest => some (.null, rest)
    | 't' :: 'r' :: 'u' :: 'e' :: rest => some (.bool true, rest)
    | 'f' :: 'a' :: 'l' :: 's' :: 'e' :: rest => some (.bool false, rest)
    | '"' :: rest => (readText rest.length rest).map fun (text, rest) => (.string (String.ofList text), rest)
    | '[' :: rest =>
        if rest.head? = some ']' then some (.array [], rest.tail)
        else do
          let (x, rest) ← read fuel rest
          let (xs, rest) ← readItems fuel rest
          return (.array (x :: xs), rest)
    | '{' :: rest =>
        if rest.head? = some '}' then some (.object [], rest.tail)
        else do
          let (k, rest) ← readKey rest
          let (x, rest) ← read fuel rest
          let (fs, rest) ← readFields fuel rest
          return (.object ((k, x) :: fs), rest)
    | cs => (readNumber cs).map fun (n, rest) => (.number n, rest)
def readItems : Nat → List Char → Option (List Value × List Char)
  | 0, _ => none
  | fuel + 1, cs =>
    match cs with
    | ']' :: rest => some ([], rest)
    | ',' :: rest => do
        let (x, rest) ← read fuel rest
        let (xs, rest) ← readItems fuel rest
        return (x :: xs, rest)
    | _ => none
def readFields : Nat → List Char → Option (List (String × Value) × List Char)
  | 0, _ => none
  | fuel + 1, cs =>
    match cs with
    | '}' :: rest => some ([], rest)
    | ',' :: rest => do
        let (k, rest) ← readKey rest
        let (x, rest) ← read fuel rest
        let (fs, rest) ← readFields fuel rest
        return ((k, x) :: fs, rest)
    | _ => none
end

/-! ### Reading inverts printing -/

theorem readChar_escapeChar (c : Char) (rest : List Char) :
    readChar (escapeChar c ++ rest) = some (c, rest) := by
  unfold escapeChar
  split_ifs with quotes slash newline carriage tab back form control
  · simp [readChar, quotes]
  · simp [readChar, slash]
  · simp [readChar, newline]
  · simp [readChar, carriage]
  · simp [readChar, tab]
  · have same : Char.ofNat 8 = c := by rw [← back, Char.ofNat_toNat]
    simpa [readChar] using same
  · have same : Char.ofNat 12 = c := by rw [← form, Char.ofNat_toNat]
    simpa [readChar] using same
  · have code : Char.ofNat (16 * hexValue (hexDigit (c.toNat / 16)) +
        hexValue (hexDigit (c.toNat % 16))) = c := by
      have table : ∀ n < 32, 16 * hexValue (hexDigit (n / 16)) + hexValue (hexDigit (n % 16)) = n := by
        decide
      rw [table c.toNat control, Char.ofNat_toNat]
    simp [readChar, code]
  · simp [readChar, slash]

theorem escapeChar_head (c : Char) (rest : List Char) :
    (escapeChar c ++ rest).head? ≠ some '"' := by
  unfold escapeChar
  split_ifs with quotes <;> simp_all

theorem readText_escaped (cs rest : List Char) (fuel : Nat) (enough : cs.length < fuel) :
    readText fuel (cs.flatMap escapeChar ++ '"' :: rest) = some (cs, rest) := by
  induction cs generalizing fuel with
  | nil =>
      cases fuel with
      | zero => simp at enough
      | succ fuel => simp [readText]
  | cons c cs ih =>
      cases fuel with
      | zero => simp at enough
      | succ fuel =>
          have tail := ih fuel (by simpa using enough)
          simp only [List.flatMap_cons, List.append_assoc, readText]
          rw [if_neg (escapeChar_head c _), readChar_escapeChar]
          simp [tail]

theorem length_le_escaped (cs : List Char) : cs.length ≤ (cs.flatMap escapeChar).length := by
  induction cs with
  | nil => simp
  | cons c cs ih =>
      have head : 1 ≤ (escapeChar c).length := by
        unfold escapeChar
        split_ifs <;> simp
      simp only [List.flatMap_cons, List.length_append, List.length_cons]
      omega

/-- What may follow a number: the end of the text or a character that is not a digit. -/
def Delimited (rest : List Char) : Prop := ∀ c, rest.head? = some c → c.isDigit = false

theorem readDigits_toDigits (n : Nat) {rest : List Char} (delimited : Delimited rest) :
    readDigits (Nat.toDigits 10 n ++ rest) = some (n, rest) := by
  have digits : ∀ c ∈ Nat.toDigits 10 n, c.isDigit = true :=
    fun c member => Nat.isDigit_of_mem_toDigits (by decide) (by decide) member
  have stop : rest.takeWhile Char.isDigit = [] ∧ rest.dropWhile Char.isDigit = rest := by
    cases rest with
    | nil => simp
    | cons c rest => simp [delimited c rfl]
  have taken : (Nat.toDigits 10 n ++ rest).takeWhile Char.isDigit = Nat.toDigits 10 n := by
    rw [List.takeWhile_append_of_pos digits, stop.1, List.append_nil]
  have dropped : (Nat.toDigits 10 n ++ rest).dropWhile Char.isDigit = rest := by
    rw [List.dropWhile_append_of_pos digits, stop.2]
  simp [readDigits, taken, dropped, Nat.toDigits_ne_nil]

theorem toDigits_head (n : Nat) : ∃ c tail, Nat.toDigits 10 n = c :: tail ∧ c.isDigit = true := by
  cases digits : Nat.toDigits 10 n with
  | nil => exact absurd digits Nat.toDigits_ne_nil
  | cons c tail =>
      exact ⟨c, tail, rfl, Nat.isDigit_of_mem_toDigits (by decide) (by decide) (digits ▸ List.mem_cons_self)⟩

theorem readNumber_print (n : Number) {rest : List Char} (delimited : Delimited rest) :
    readNumber (printNumber n ++ rest) = some (n, rest) := by
  cases n with
  | posInt n =>
      have whole := readDigits_toDigits n.toNat delimited
      obtain ⟨c, tail, digits, isDigit⟩ := toDigits_head n.toNat
      simp only [printNumber, digits, List.cons_append] at whole ⊢
      unfold readNumber
      split
      · next same => cases same; exact absurd isDigit (by decide)
      · next same => cases same; exact absurd isDigit (by decide)
      · simp [whole]
  | negInt n => simp [printNumber, readNumber, readDigits_toDigits _ delimited]
  | float x =>
      obtain ⟨bits, finite⟩ := x
      simpa [printNumber, readNumber, readDigits_toDigits _ delimited] using finite

theorem read_number (fuel : Nat) (n : Number) {rest : List Char} (delimited : Delimited rest) :
    read (fuel + 1) (printNumber n ++ rest) = some (.number n, rest) := by
  have number := readNumber_print n delimited
  have head : ∃ c tail, printNumber n = c :: tail ∧ (c.isDigit = true ∨ c = '-' ∨ c = '+') := by
    cases n with
    | posInt n =>
        obtain ⟨c, tail, digits, isDigit⟩ := toDigits_head n.toNat
        exact ⟨c, tail, digits, .inl isDigit⟩
    | negInt n => exact ⟨_, _, rfl, .inr (.inl rfl)⟩
    | float x => exact ⟨_, _, rfl, .inr (.inr rfl)⟩
  obtain ⟨c, tail, shape, kind⟩ := head
  simp only [shape, List.cons_append] at number ⊢
  unfold read
  split
  all_goals try
    next same =>
      obtain ⟨rfl, -⟩ := List.cons.inj same
      exact absurd kind (by decide)
  simp [number]

theorem readKey_quote (k : String) (rest : List Char) :
    readKey (quote k ++ ':' :: rest) = some (k, rest) := by
  have enough : k.toList.length < (quote k ++ ':' :: rest).length := by
    have := length_le_escaped k.toList
    simp only [quote, List.length_append, List.length_cons]
    omega
  have text := readText_escaped k.toList (':' :: rest) _ enough
  simp only [quote, List.cons_append, List.append_assoc, List.nil_append] at text ⊢
  simp [readKey, text, -List.length_append, -List.length_cons]

/-- Every printed tree starts with a character that opens no closing bracket. -/
theorem print_head (v : Value) : ∃ c tail, print v = c :: tail ∧ c ≠ ']' := by
  cases v with
  | null => exact ⟨'n', _, rfl, by decide⟩
  | bool b => cases b with
    | false => exact ⟨'f', _, rfl, by decide⟩
    | true => exact ⟨'t', _, rfl, by decide⟩
  | number n =>
      cases n with
      | posInt n =>
          obtain ⟨c, tail, digits, isDigit⟩ := toDigits_head n.toNat
          exact ⟨c, tail, by simp [print, printNumber, digits], by rintro rfl; exact absurd isDigit (by decide)⟩
      | negInt n => exact ⟨'-', _, rfl, by decide⟩
      | float x => exact ⟨'+', _, rfl, by decide⟩
  | string s => exact ⟨'"', _, rfl, by decide⟩
  | array items => cases items <;> exact ⟨'[', _, rfl, by decide⟩
  | object fields => rcases fields with - | ⟨⟨k, x⟩, fs⟩ <;> exact ⟨'{', _, rfl, by decide⟩

/-- Reading inverts printing at one tree. -/
def Reads (v : Value) : Prop :=
  ∀ (fuel : Nat) (rest : List Char), 2 * (print v).length ≤ fuel → Delimited rest →
    read fuel (print v ++ rest) = some (v, rest)

theorem printItems_delimited (items : List Value) (rest : List Char) :
    Delimited (printItems items ++ rest) := by
  cases items <;> simp [Delimited, printItems]

theorem printFields_delimited (fields : List (String × Value)) (rest : List Char) :
    Delimited (printFields fields ++ rest) := by
  rcases fields with - | ⟨⟨k, x⟩, fs⟩ <;> simp [Delimited, printFields]

theorem readItems_print (items : List Value) (reads : ∀ item ∈ items, Reads item) (fuel : Nat)
    (rest : List Char) (enough : 2 * (printItems items).length ≤ fuel) :
    readItems fuel (printItems items ++ rest) = some (items, rest) := by
  induction items generalizing fuel with
  | nil =>
      obtain ⟨fuel, rfl⟩ : ∃ n, fuel = n + 1 := ⟨fuel - 1, by simp [printItems] at enough; omega⟩
      simp [printItems, readItems]
  | cons x xs ih =>
      simp only [printItems, List.length_cons, List.length_append] at enough
      obtain ⟨fuel, rfl⟩ : ∃ n, fuel = n + 1 := ⟨fuel - 1, by omega⟩
      have first := reads x List.mem_cons_self fuel (printItems xs ++ rest) (by omega)
        (printItems_delimited xs rest)
      have others := ih (fun item member => reads item (List.mem_cons_of_mem _ member)) fuel (by omega)
      simp [printItems, readItems, first, others]

theorem readFields_print (fields : List (String × Value)) (reads : ∀ field ∈ fields, Reads field.2)
    (fuel : Nat) (rest : List Char) (enough : 2 * (printFields fields).length ≤ fuel) :
    readFields fuel (printFields fields ++ rest) = some (fields, rest) := by
  induction fields generalizing fuel with
  | nil =>
      obtain ⟨fuel, rfl⟩ : ∃ n, fuel = n + 1 := ⟨fuel - 1, by simp [printFields] at enough; omega⟩
      simp [printFields, readFields]
  | cons field fs ih =>
      obtain ⟨k, x⟩ := field
      simp only [printFields, List.length_cons, List.length_append] at enough
      obtain ⟨fuel, rfl⟩ : ∃ n, fuel = n + 1 := ⟨fuel - 1, by omega⟩
      have first := reads (k, x) List.mem_cons_self fuel (printFields fs ++ rest) (by dsimp only; omega)
        (printFields_delimited fs rest)
      have others := ih (fun field member => reads field (List.mem_cons_of_mem _ member)) fuel (by omega)
      simp only [printFields, readFields, List.cons_append, List.append_assoc, readKey_quote]
      simp [first, others]

theorem reads (v : Value) : Reads v := by
  induction v using Value.children with
  | null =>
      intro fuel rest enough _
      obtain ⟨fuel, rfl⟩ : ∃ n, fuel = n + 1 := ⟨fuel - 1, by simp [print] at enough; omega⟩
      simp [print, read]
  | bool b =>
      intro fuel rest enough _
      cases b <;>
      · obtain ⟨fuel, rfl⟩ : ∃ n, fuel = n + 1 := ⟨fuel - 1, by simp [print] at enough; omega⟩
        simp [print, read]
  | number n =>
      intro fuel rest enough delimited
      obtain ⟨c, tail, shape, -⟩ := print_head (.number n)
      obtain ⟨fuel, rfl⟩ : ∃ n, fuel = n + 1 := ⟨fuel - 1, by simp [shape] at enough; omega⟩
      exact read_number fuel n delimited
  | string s =>
      intro fuel rest enough _
      obtain ⟨fuel, rfl⟩ : ∃ n, fuel = n + 1 := ⟨fuel - 1, by simp [print, quote] at enough; omega⟩
      have long := length_le_escaped s.toList
      have text := readText_escaped s.toList rest (s.toList.flatMap escapeChar ++ '"' :: rest).length
        (by simp only [List.length_append, List.length_cons]; omega)
      simp only [print, quote, List.cons_append, List.append_assoc, List.nil_append, read]
      simp [text, -List.length_append]
  | array items ih =>
      intro fuel rest enough _
      cases items with
      | nil =>
          obtain ⟨fuel, rfl⟩ : ∃ n, fuel = n + 1 := ⟨fuel - 1, by simp [print] at enough; omega⟩
          simp [print, read]
      | cons x xs =>
          simp only [print, List.length_cons, List.length_append] at enough
          obtain ⟨fuel, rfl⟩ : ∃ n, fuel = n + 1 := ⟨fuel - 1, by omega⟩
          have first := ih x List.mem_cons_self fuel (printItems xs ++ rest) (by omega)
            (printItems_delimited xs rest)
          have others := readItems_print xs (fun item member => ih item (List.mem_cons_of_mem _ member))
            fuel rest (by omega)
          obtain ⟨c, tail, shape, notClosing⟩ := print_head x
          simp only [shape, List.cons_append] at first
          simp only [print, shape, List.cons_append, List.append_assoc, read]
          simp [notClosing, first, others]
  | object fields ih =>
      intro fuel rest enough _
      cases fields with
      | nil =>
          obtain ⟨fuel, rfl⟩ : ∃ n, fuel = n + 1 := ⟨fuel - 1, by simp [print] at enough; omega⟩
          simp [print, read]
      | cons field fs =>
          obtain ⟨k, x⟩ := field
          simp only [print, List.length_cons, List.length_append] at enough
          obtain ⟨fuel, rfl⟩ : ∃ n, fuel = n + 1 := ⟨fuel - 1, by omega⟩
          have first := ih (k, x) List.mem_cons_self fuel (printFields fs ++ rest) (by dsimp only; omega)
            (printFields_delimited fs rest)
          have others := readFields_print fs (fun field member => ih field (List.mem_cons_of_mem _ member))
            fuel rest (by omega)
          have key := readKey_quote k (print x ++ (printFields fs ++ rest))
          simp only [quote, List.cons_append, List.append_assoc, List.nil_append] at key
          simp only [print, quote, List.cons_append, List.append_assoc, List.nil_append, read]
          simp [key, first, others]

/-- Decode a whole text, under the limits a decoder enforces. -/
def fromStr (text : String) : Option Value :=
  match read (2 * text.toList.length) text.toList with
  | some (v, []) => if v.wellFormed && decide (v.depth < recursionLimit) then some v else none
  | _ => none

theorem read_all (v : Value) : read (2 * (print v).length) (print v) = some (v, []) := by
  simpa using reads v (2 * (print v).length) [] le_rfl (by simp [Delimited])

theorem fromStr_print {v : Value} (formed : v.wellFormed = true) (shallow : v.depth < recursionLimit) :
    fromStr (String.ofList (print v)) = some v := by
  simp [fromStr, read_all, formed, shallow]

theorem print_injective {v w : Value} (same : print v = print w) : v = w := by
  have left := read_all v
  rw [same, read_all w] at left
  exact (Prod.mk.inj (Option.some.inj left)).1.symm

/-- The compact form keeps every promise of a text library. -/
def codec : Codec where
  fromStr := fromStr
  toString v := String.ofList (print v)
  fromStr_wellFormed {text v} decoded := by
    unfold fromStr at decoded
    split at decoded
    · split_ifs at decoded with limits
      obtain rfl := Option.some.inj decoded
      exact (Bool.and_eq_true_iff.mp limits).1
    · cases decoded
  fromStr_toString formed shallow _ := fromStr_print formed shallow
  toString_injective _ _ same := print_injective (String.ofList_injective same)
  toString_posInt n := by simp [print, printNumber]

end Compact

end McpTracer.Json
