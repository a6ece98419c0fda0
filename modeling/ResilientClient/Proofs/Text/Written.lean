/-
Written texts. Every text can be read back from its percent-encoded form (`decode_encode`), in which no character is
a delimiter of a URL (`plain_of_mem_encode`); joined texts stand one after the other (`toList_join`).
-/
import ResilientClient.Text.Join
import ResilientClient.Text.Percent
import Mathlib.Tactic

namespace ResilientClient

/-! ## Texts and their bytes -/

namespace Bytes

theorem toText?_ofText (text : String) : toText? (ofText text) = some text := by
  have hbytes : (⟨(ofText text).toArray⟩ : ByteArray) = text.toByteArray := by
    rw [← String.utf8Encode_toList]
    exact ByteArray.ext List.data_toByteArray.symm
  unfold toText?
  rw [hbytes]
  exact dif_pos text.isValidUTF8

end Bytes

namespace Text.Percent

/-! ## Decoding -/

/-- The value of a hexadecimal digit. -/
def digit? (c : Char) : Option Nat :=
  if '0' ≤ c ∧ c ≤ '9' then some (c.toNat - 48)
  else if 'A' ≤ c ∧ c ≤ 'F' then some (c.toNat - 55)
  else if 'a' ≤ c ∧ c ≤ 'f' then some (c.toNat - 87)
  else none

/-- The bytes of a percent-encoded text: a percent sign and two digits are one byte, and any other character is
its UTF-8 form. -/
def decodeBytes : List Char → Bytes
  | [] => []
  | '%' :: a :: b :: rest =>
    match digit? a, digit? b with
    | some high, some low => UInt8.ofNat (16 * high + low) :: decodeBytes rest
    | _, _ => String.utf8EncodeChar '%' ++ decodeBytes (a :: b :: rest)
  | c :: rest => String.utf8EncodeChar c ++ decodeBytes rest

/-- The text that a percent-encoded text stands for, if its bytes are one. -/
def decode (text : List Char) : Option String := Bytes.toText? (decodeBytes text)

theorem digit?_upperHexDigit : ∀ n < 16, digit? (Bytes.upperHexDigit n) = some n := by decide

theorem utf8_of_unreserved : ∀ n < 256, isUnreserved (UInt8.ofNat n) = true →
    Char.ofNat n ≠ '%' ∧ String.utf8EncodeChar (Char.ofNat n) = [UInt8.ofNat n] := by
  decide +kernel

theorem decodeBytes_cons {c : Char} (hc : c ≠ '%') (rest : List Char) :
    decodeBytes (c :: rest) = String.utf8EncodeChar c ++ decodeBytes rest := by
  rw [decodeBytes]
  intro a b more hpercent
  exact absurd hpercent hc

theorem decodeBytes_encodeByte (b : UInt8) (rest : List Char) :
    decodeBytes (encodeByte b ++ rest) = b :: decodeBytes rest := by
  have hlt : b.toNat < 256 := b.toNat_lt
  unfold encodeByte
  split
  · rename_i hb
    rw [← UInt8.ofNat_toNat (x := b)] at hb
    obtain ⟨hpercent, hutf8⟩ := utf8_of_unreserved b.toNat hlt hb
    rw [List.singleton_append, decodeBytes_cons hpercent, hutf8, UInt8.ofNat_toNat]
    rfl
  · have hhigh := digit?_upperHexDigit (b.toNat / 16) (by omega)
    have hlow := digit?_upperHexDigit (b.toNat % 16) (by omega)
    simp only [Bytes.upperHex, List.cons_append, List.nil_append, decodeBytes, hhigh, hlow]
    rw [Nat.div_add_mod, UInt8.ofNat_toNat]

theorem decodeBytes_flatMap (bytes : Bytes) (rest : List Char) :
    decodeBytes (bytes.flatMap encodeByte ++ rest) = bytes ++ decodeBytes rest := by
  induction bytes with
  | nil => rfl
  | cons b bytes ih =>
    rw [List.flatMap_cons, List.append_assoc, decodeBytes_encodeByte, ih]
    rfl

/-- A text is read back from its encoded form. -/
theorem decode_encode (text : String) : decode (encode text).toList = some text := by
  have hbytes := decodeBytes_flatMap (Bytes.ofText text) []
  simp only [decodeBytes, List.append_nil] at hbytes
  unfold decode encode
  rw [String.toList_ofList, hbytes, Bytes.toText?_ofText]

/-! ## Encoded texts -/

/-- The characters of encoded texts. -/
def isPlain (c : Char) : Bool :=
  c.isAlphanum || c == '-' || c == '.' || c == '_' || c == '~' || c == '%'

theorem toNat_le_of_isAlphanum {c : Char} (h : c.isAlphanum = true) : c.toNat ≤ 122 := by
  have hle (last : Char) (hbound : c.val ≤ last.val) : c.toNat ≤ last.toNat := UInt32.le_iff_toNat_le.mp hbound
  rcases Bool.or_eq_true_iff.mp h with hletter | hdigit
  · rcases Bool.or_eq_true_iff.mp hletter with hupper | hlower
    · exact (hle 'Z' (of_decide_eq_true hupper).2).trans (by decide)
    · exact hle 'z' (of_decide_eq_true (Bool.and_eq_true_iff.mp hlower).2)
  · exact (hle '9' (of_decide_eq_true (Bool.and_eq_true_iff.mp hdigit).2)).trans (by decide)

theorem toNat_lt_of_plain {c : Char} (h : isPlain c = true) : c.toNat < 128 := by
  simp only [isPlain, Bool.or_eq_true, beq_iff_eq] at h
  rcases h with ((((h | rfl) | rfl) | rfl) | rfl) | rfl
  · exact (toNat_le_of_isAlphanum h).trans_lt (by decide)
  all_goals decide

theorem plain_of_unreserved : ∀ n < 256, isUnreserved (UInt8.ofNat n) = true → isPlain (Char.ofNat n) = true := by
  decide +kernel

theorem plain_upperHexDigit : ∀ n < 16, isPlain (Bytes.upperHexDigit n) = true := by decide

theorem plain_of_mem_encodeByte {b : UInt8} {c : Char} (h : c ∈ encodeByte b) : isPlain c = true := by
  have hlt : b.toNat < 256 := b.toNat_lt
  unfold encodeByte at h
  split at h
  · rename_i hb
    rw [← UInt8.ofNat_toNat (x := b)] at hb
    obtain rfl := List.mem_singleton.1 h
    exact plain_of_unreserved b.toNat hlt hb
  · simp only [Bytes.upperHex, List.mem_cons, List.not_mem_nil, or_false] at h
    rcases h with rfl | rfl | rfl
    · rfl
    · exact plain_upperHexDigit _ (by omega)
    · exact plain_upperHexDigit _ (by omega)

theorem plain_of_mem_encode {text : String} {c : Char} (h : c ∈ (encode text).toList) : isPlain c = true := by
  unfold encode at h
  rw [String.toList_ofList] at h
  obtain ⟨b, -, hc⟩ := List.mem_flatMap.1 h
  exact plain_of_mem_encodeByte hc

theorem encode_eq_empty_iff (text : String) : encode text = "" ↔ text = "" := by
  constructor
  · intro h
    have hread := decode_encode text
    rw [h] at hread
    exact Option.some.inj (hread.symm.trans (decode_encode ""))
  · rintro rfl
    rfl

end Text.Percent

/-! ## Joined texts -/

namespace Text

theorem toList_join (separator : String) (texts : List String) :
    (join separator texts).toList = separator.toList.intercalate (texts.map String.toList) := by
  induction texts with
  | nil => rfl
  | cons text texts ih =>
    cases texts with
    | nil => exact List.intercalate_singleton.symm
    | cons next texts =>
      rw [join_cons_cons, String.toList_append, String.toList_append, ih]
      exact List.intercalate_cons_cons.symm

theorem toList_join_empty (texts : List String) : (join "" texts).toList = texts.flatMap String.toList := by
  rw [toList_join]
  induction texts with
  | nil => rfl
  | cons text texts ih =>
    cases texts with
    | nil => exact List.intercalate_singleton.trans (List.append_nil _).symm
    | cons next texts =>
      rw [List.flatMap_cons, ← ih, List.map_cons, List.map_cons, List.intercalate_cons_cons]
      simp

theorem head_join (separator : String) {first : String} (hfirst : first ≠ "") (rest : List String) :
    (join separator (first :: rest)).toList.head? = first.toList.head? := by
  cases rest with
  | nil => rfl
  | cons next rest =>
    have hne : first.toList ≠ [] := by simpa using hfirst
    rw [join_cons_cons, String.append_assoc, String.toList_append, List.head?_append_of_ne_nil _ hne]

end Text

end ResilientClient
