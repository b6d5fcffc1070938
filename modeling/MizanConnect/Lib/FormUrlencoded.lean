import MizanConnect.Lib.Url
import MizanConnect.Lib.Utf8

/-!
# `MizanConnect.Lib.FormUrlencoded`: key-value pairs in a query

The rules of `application/x-www-form-urlencoded`. `parse` splits a query on
`&` and each piece on its first `=`, and decodes both halves. A serializer may
keep any ASCII bytes that mean nothing to the parser (`KeepSet`). With every
one of them, parsing gives the pairs back (`parse_serialize`), so a query of
at least one pair has one reading.
-/

set_option autoImplicit false

namespace FormUrlencoded

/-! ### The parser -/

/-- The value of a hexadecimal digit. -/
def hexValue (c : Char) : Option Nat :=
  if '0' ≤ c ∧ c ≤ '9' then some (c.toNat - 48)
  else if 'A' ≤ c ∧ c ≤ 'F' then some (c.toNat - 55)
  else if 'a' ≤ c ∧ c ≤ 'f' then some (c.toNat - 87)
  else none

/-- `+` is a space and `%XX` a byte; a `%` without two digits is itself. -/
def decodeBytes : List Char → List UInt8
  | [] => []
  | c :: cs =>
    if c = '+' then 0x20 :: decodeBytes cs
    else if c = '%' then
      match cs with
      | hi :: lo :: rest =>
        match hexValue hi, hexValue lo with
        | some h, some l => UInt8.ofNat (h * 16 + l) :: decodeBytes rest
        | _, _ => 0x25 :: decodeBytes (hi :: lo :: rest)
      | cs => 0x25 :: decodeBytes cs
    else String.utf8EncodeChar c ++ decodeBytes cs

/-- A name or a value. -/
def decodeText (cs : List Char) : List Char := Utf8.fromUtf8Lossy (decodeBytes cs)

/-- A piece, split at its first `=`. -/
def decodePair (piece : List Char) : List Char × List Char :=
  (decodeText (piece.takeWhile (· ≠ '=')), decodeText (piece.dropWhile (· ≠ '=')).tail)

/-- The pairs of a query. -/
def parse (query : List Char) : List (List Char × List Char) :=
  (query.splitOn '&').map decodePair

/-! ### The serializer -/

/-- The bytes that are written as they are. -/
structure KeepSet where
  keep : UInt8 → Bool
  ascii : ∀ b, keep b = true → b.toNat < 0x80
  notReserved : ∀ b, keep b = true → Char.ofNat b.toNat ∉ ['%', '+', '&', '=']

variable (s : KeepSet)

def encodeByte (b : UInt8) : List Char :=
  if b = 0x20 then ['+']
  else if s.keep b then [Char.ofNat b.toNat]
  else Url.percentEncode b

def encodeBytes (bs : List UInt8) : List Char := bs.flatMap (encodeByte s)

/-- One `name=value`. -/
def encodePair (pair : List Char × List Char) : List Char :=
  encodeBytes s (Utf8.encode pair.1) ++ '=' :: encodeBytes s (Utf8.encode pair.2)

/-- The pieces with `&` between them. -/
def serialize (pairs : List (List Char × List Char)) : List Char :=
  ['&'].intercalate (pairs.map (encodePair s))

/-! ### The round trip -/

variable {s}

theorem hexValue_hexDigit {n : Nat} (h : n < 16) : hexValue (Url.hexDigit n) = some n := by
  have hall : ∀ n : Fin 16, hexValue (Url.hexDigit n.1) = some n.1 := by decide
  exact hall ⟨n, h⟩

theorem decodeBytes_plus (cs : List Char) :
    decodeBytes ('+' :: cs) = 0x20 :: decodeBytes cs := by
  rcases cs with _ | ⟨_, _ | ⟨_, _⟩⟩ <;> rfl

/-- A character that means nothing stands for its bytes. -/
theorem decodeBytes_literal {c : Char} (cs : List Char) (hplus : c ≠ '+') (hpercent : c ≠ '%') :
    decodeBytes (c :: cs) = String.utf8EncodeChar c ++ decodeBytes cs := by
  rcases cs with _ | ⟨_, _ | ⟨_, _⟩⟩ <;> simp [decodeBytes, hplus, hpercent]

/-- Two digits after `%` are a byte. -/
theorem decodeBytes_escape {hi lo : Char} {h l : Nat} (cs : List Char)
    (hhi : hexValue hi = some h) (hlo : hexValue lo = some l) :
    decodeBytes ('%' :: hi :: lo :: cs) = UInt8.ofNat (h * 16 + l) :: decodeBytes cs := by
  rw [decodeBytes, if_neg (by decide), if_pos rfl]
  simp only [hhi, hlo]

/-- A byte is read back, whatever follows it. -/
theorem decodeBytes_encodeByte (b : UInt8) (rest : List Char) :
    decodeBytes (encodeByte s b ++ rest) = b :: decodeBytes rest := by
  unfold encodeByte
  split
  · rename_i hspace
    rw [hspace]
    exact decodeBytes_plus rest
  · split
    · rename_i hkeep
      have hreserved := s.notReserved b hkeep
      have hascii := s.ascii b hkeep
      have hplus : Char.ofNat b.toNat ≠ '+' := fun h => hreserved (by simp [h])
      have hpercent : Char.ofNat b.toNat ≠ '%' := fun h => hreserved (by simp [h])
      have hchar : b.toNat = (Char.ofNat b.toNat).toNat := by
        have hvalid : b.toNat.isValidChar := Or.inl (by omega)
        rw [Char.ofNat, dif_pos hvalid]
        rfl
      have hencode := Utf8.utf8EncodeChar_of_toNat hascii hchar
      rw [List.singleton_append, decodeBytes_literal rest hplus hpercent, hencode]
      rfl
    · -- the two digits after `%` give the byte back
      have hb := b.toNat_lt
      have hhi : b.toNat / 16 < 16 := by omega
      have hlo : b.toNat % 16 < 16 := by omega
      have hvalue : b.toNat / 16 * 16 + b.toNat % 16 = b.toNat := by omega
      have hescape := decodeBytes_escape rest (hexValue_hexDigit hhi) (hexValue_hexDigit hlo)
      rw [hvalue, UInt8.ofNat_toNat] at hescape
      exact hescape

theorem decodeBytes_encodeBytes (bs : List UInt8) : decodeBytes (encodeBytes s bs) = bs := by
  induction bs with
  | nil => rfl
  | cons b bs ih =>
    rw [encodeBytes, List.flatMap_cons, decodeBytes_encodeByte]
    exact congrArg (b :: ·) ih

/-- A name or a value is read back. -/
theorem decodeText_encodeBytes (text : List Char) :
    decodeText (encodeBytes s (Utf8.encode text)) = text := by
  rw [decodeText, decodeBytes_encodeBytes, Utf8.fromUtf8Lossy_encode]

/-- No separator is in an encoded byte. -/
theorem separator_not_mem_encodeByte (b : UInt8) :
    '&' ∉ encodeByte s b ∧ '=' ∉ encodeByte s b := by
  unfold encodeByte
  split
  · decide
  · split
    · rename_i hkeep
      have hreserved := s.notReserved b hkeep
      refine ⟨fun h => hreserved ?_, fun h => hreserved ?_⟩
      · rw [← List.mem_singleton.mp h]
        decide
      · rw [← List.mem_singleton.mp h]
        decide
    · have hdigits : ∀ n : Fin 16, Url.hexDigit n.1 ≠ '&' ∧ Url.hexDigit n.1 ≠ '=' := by decide
      have hb := b.toNat_lt
      have hhi := hdigits ⟨b.toNat / 16, by omega⟩
      have hlo := hdigits ⟨b.toNat % 16, by omega⟩
      simp [Url.percentEncode, hhi.1.symm, hhi.2.symm, hlo.1.symm, hlo.2.symm]

theorem separator_not_mem_encodeBytes (bs : List UInt8) :
    '&' ∉ encodeBytes s bs ∧ '=' ∉ encodeBytes s bs := by
  constructor
  · intro h
    obtain ⟨b, -, hb⟩ := List.mem_flatMap.mp h
    exact (separator_not_mem_encodeByte b).1 hb
  · intro h
    obtain ⟨b, -, hb⟩ := List.mem_flatMap.mp h
    exact (separator_not_mem_encodeByte b).2 hb

/-- The first `=` of a piece is the one between its name and its value. -/
theorem decodePair_encodePair (pair : List Char × List Char) :
    decodePair (encodePair s pair) = pair := by
  have hname : ∀ c ∈ encodeBytes s (Utf8.encode pair.1), decide (c ≠ '=') = true := by
    intro c hc
    refine decide_eq_true ?_
    rintro rfl
    exact (separator_not_mem_encodeBytes _).2 hc
  rw [decodePair, encodePair, List.takeWhile_append_of_pos hname,
    List.dropWhile_append_of_pos hname, List.takeWhile_cons_of_neg (by decide),
    List.dropWhile_cons_of_neg (by decide), List.append_nil, List.tail_cons,
    decodeText_encodeBytes, decodeText_encodeBytes]

theorem ampersand_not_mem_encodePair (pair : List Char × List Char) : '&' ∉ encodePair s pair := by
  intro h
  cases List.mem_append.mp h with
  | inl hname => exact (separator_not_mem_encodeBytes _).1 hname
  | inr hrest =>
    cases List.mem_cons.mp hrest with
    | inl heq => exact absurd heq (by decide)
    | inr hvalue => exact (separator_not_mem_encodeBytes _).1 hvalue

/-- Parsing gives the pairs back, in their order. -/
theorem parse_serialize {pairs : List (List Char × List Char)} (hne : pairs ≠ []) :
    parse (serialize s pairs) = pairs := by
  have hpieces : ∀ piece ∈ pairs.map (encodePair s), '&' ∉ piece := by
    intro piece hpiece
    obtain ⟨pair, -, rfl⟩ := List.mem_map.mp hpiece
    exact ampersand_not_mem_encodePair pair
  rw [parse, serialize, List.splitOn_intercalate '&' hpieces (by simpa using hne), List.map_map]
  refine (List.map_congr_left ?_).trans (List.map_id pairs)
  intro pair _
  exact decodePair_encodePair pair

end FormUrlencoded
