/-
Texts as lists of characters, and as the bytes that encode them.

A scan walks bytes, and what it reads is best said of characters.  This file is the
bridge: the bytes of a text are the encodings of its characters one after another, each
of them a first byte followed by continuations.  The first byte gives the character's
width away, and it is an ASCII byte only where it is the whole character.
-/
import MonkeyTokens.Text.Utf8

namespace MonkeyTokens.Utf8

/-- The bytes of a list of characters. -/
def encode (cs : List Char) : List UInt8 :=
  cs.flatMap String.utf8EncodeChar

/-- How many bytes the characters have together. -/
def size : List Char → Nat
  | [] => 0
  | c :: cs => c.utf8Size + size cs

@[simp] theorem encode_nil : encode [] = [] := rfl

@[simp] theorem encode_cons (c : Char) (cs : List Char) :
    encode (c :: cs) = String.utf8EncodeChar c ++ encode cs := rfl

@[simp] theorem encode_append (cs ds : List Char) : encode (cs ++ ds) = encode cs ++ encode ds :=
  List.flatMap_append

@[simp] theorem size_nil : size [] = 0 := rfl

@[simp] theorem size_cons (c : Char) (cs : List Char) : size (c :: cs) = c.utf8Size + size cs :=
  rfl

@[simp] theorem size_append (cs ds : List Char) : size (cs ++ ds) = size cs + size ds := by
  induction cs with
  | nil => simp
  | cons c cs ih => simp [ih, Nat.add_assoc]

@[simp] theorem length_encode (cs : List Char) : (encode cs).length = size cs := by
  induction cs with
  | nil => rfl
  | cons c cs ih => simp [ih]

/-! ### The bytes of a text -/

theorem bytes_eq_encode (text : String) : bytes text = encode text.toList := by
  obtain ⟨cs, rfl⟩ := text.exists_eq_ofList
  simp [bytes, encode, List.utf8Encode]

@[simp] theorem bytes_ofList (cs : List Char) : bytes (.ofList cs) = encode cs := by
  rw [bytes_eq_encode, String.toList_ofList]

@[simp] theorem bytes_append (s t : String) : bytes (s ++ t) = bytes s ++ bytes t := by
  simp [bytes_eq_encode]

@[simp] theorem bytes_empty : bytes "" = [] := rfl

@[simp] theorem utf8ByteSize_ofList (cs : List Char) :
    (String.ofList cs).utf8ByteSize = size cs := by
  rw [← length_encode, ← bytes_ofList]
  rfl

theorem utf8ByteSize_eq_size (text : String) : text.utf8ByteSize = size text.toList := by
  rw [← utf8ByteSize_ofList, String.ofList_toList]

theorem length_bytes (text : String) : (bytes text).length = text.utf8ByteSize := by
  rw [bytes_eq_encode, length_encode, utf8ByteSize_eq_size]

/-- The bytes from one offset up to another. -/
def slice (bs : List UInt8) (start stop : Nat) : List UInt8 :=
  (bs.take stop).drop start

/-- The bytes between two places of a list of characters are those of the characters there. -/
theorem slice_encode (us vs ws : List Char) :
    slice (encode (us ++ vs ++ ws)) (size us) (size (us ++ vs)) = encode vs := by
  rw [slice, encode_append, ← length_encode, ← length_encode, List.take_left, encode_append,
    List.drop_left]

/-- Cutting a piece out of a text cuts its bytes out. -/
theorem bytes_extract {text : String} (start stop : text.Pos) :
    bytes (text.extract start stop)
      = slice (bytes text) start.offset.byteIdx stop.offset.byteIdx := by
  show (ByteArray.extract _ _ _).data.toList = _
  rw [ByteArray.data_extract, Array.toList_extract, List.extract_eq_drop_take']
  rfl

/-- Different texts have different bytes. -/
theorem bytes_injective {s t : String} (h : bytes s = bytes t) : s = t := by
  apply String.toByteArray_inj.1
  exact ByteArray.ext (Array.toList_inj.1 h)

/-- Decoding accepts exactly the bytes of texts. -/
theorem decode?_eq_some_iff {bs : List UInt8} {text : String} :
    decode? bs = some text ↔ bytes text = bs := by
  unfold decode? String.fromUTF8?
  constructor
  · intro h
    split at h
    · rw [Option.some.injEq] at h
      subst h
      rfl
    · cases h
  · intro h
    subst h
    exact dif_pos text.isValidUTF8

theorem decode?_bytes (text : String) : decode? (bytes text) = some text :=
  decode?_eq_some_iff.2 rfl

/-! ### The first byte of a character -/

/-- The first byte of a character. -/
def lead (c : Char) : UInt8 :=
  (String.utf8EncodeChar c).head String.utf8EncodeChar_ne_nil

/-- The bytes of a character after the first. -/
def trail (c : Char) : List UInt8 :=
  (String.utf8EncodeChar c).tail

theorem utf8EncodeChar_eq (c : Char) : String.utf8EncodeChar c = lead c :: trail c :=
  (List.cons_head_tail String.utf8EncodeChar_ne_nil).symm

/-- What holds of the 256 numbers holds of the bytes. -/
theorem byte_cases {P : UInt8 → Prop} (h : ∀ n < 256, P (.ofNat n)) (b : UInt8) : P b := by
  have hb := h b.toNat b.toNat_lt
  rwa [UInt8.ofNat_toNat] at hb

private theorem leadWidth_ascii :
    ∀ b : UInt8, b < 0x80 → leadWidth b = 1 ∧ isContinuation b = false := by
  apply byte_cases
  decide +kernel

private theorem leadWidth_two : ∀ b : UInt8,
    leadWidth (b &&& 0x1F ||| 0xC0) = 2 ∧ isContinuation (b &&& 0x1F ||| 0xC0) = false := by
  apply byte_cases
  decide +kernel

private theorem leadWidth_three : ∀ b : UInt8,
    leadWidth (b &&& 0x0F ||| 0xE0) = 3 ∧ isContinuation (b &&& 0x0F ||| 0xE0) = false := by
  apply byte_cases
  decide +kernel

private theorem leadWidth_four : ∀ b : UInt8,
    leadWidth (b &&& 0x07 ||| 0xF0) = 4 ∧ isContinuation (b &&& 0x07 ||| 0xF0) = false := by
  apply byte_cases
  decide +kernel

private theorem isContinuation_trailing :
    ∀ b : UInt8, isContinuation (b &&& 0x3F ||| 0x80) = true := by
  apply byte_cases
  decide +kernel

private theorem lead_of_utf8Size_eq_one {c : Char} (h : c.utf8Size = 1) :
    lead c = c.val.toUInt8 ∧ lead c < 0x80 := by
  have hlead : lead c = c.val.toUInt8 := by
    simp only [lead, String.utf8EncodeChar_eq_singleton h, List.head_cons]
  have hval : c.val.toNat ≤ 127 := Char.utf8Size_eq_one_iff.1 h
  refine ⟨hlead, ?_⟩
  rw [hlead, UInt8.lt_iff_toNat_lt, UInt32.toNat_toUInt8]
  exact Nat.lt_of_le_of_lt (Nat.mod_le _ _) (Nat.lt_succ_of_le hval)

/-- The first byte gives the width away, and no continuation is taken for it. -/
theorem leadWidth_lead (c : Char) :
    leadWidth (lead c) = c.utf8Size ∧ isContinuation (lead c) = false := by
  obtain h | h | h | h := c.utf8Size_eq
  · rw [h]
    exact leadWidth_ascii _ (lead_of_utf8Size_eq_one h).2
  · simp only [lead, String.utf8EncodeChar_eq_cons_cons h, List.head_cons, h]
    exact leadWidth_two _
  · simp only [lead, String.utf8EncodeChar_eq_cons_cons_cons h, List.head_cons, h]
    exact leadWidth_three _
  · simp only [lead, String.utf8EncodeChar_eq_cons_cons_cons_cons h, List.head_cons, h]
    exact leadWidth_four _

/-- An ASCII byte begins a character only where it is all of it. -/
theorem lead_lt_iff {c : Char} : lead c < 0x80 ↔ c.utf8Size = 1 := by
  refine ⟨fun hlt => ?_, fun h => (lead_of_utf8Size_eq_one h).2⟩
  have hw := (leadWidth_ascii _ hlt).1
  rwa [(leadWidth_lead c).1] at hw

/-- The bytes after the first are continuations. -/
theorem isContinuation_of_mem_trail {c : Char} {b : UInt8} (hb : b ∈ trail c) :
    isContinuation b = true := by
  obtain h | h | h | h := c.utf8Size_eq
  · simp [trail, String.utf8EncodeChar_eq_singleton h] at hb
  · simp only [trail, String.utf8EncodeChar_eq_cons_cons h, List.tail_cons, List.mem_cons,
      List.not_mem_nil, or_false] at hb
    rw [hb]
    exact isContinuation_trailing _
  · simp only [trail, String.utf8EncodeChar_eq_cons_cons_cons h, List.tail_cons, List.mem_cons,
      List.not_mem_nil, or_false] at hb
    rcases hb with rfl | rfl <;> exact isContinuation_trailing _
  · simp only [trail, String.utf8EncodeChar_eq_cons_cons_cons_cons h, List.tail_cons,
      List.mem_cons, List.not_mem_nil, or_false] at hb
    rcases hb with rfl | rfl | rfl <;> exact isContinuation_trailing _

theorem trail_eq_nil {c : Char} (h : lead c < 0x80) : trail c = [] := by
  simp [trail, String.utf8EncodeChar_eq_singleton (lead_lt_iff.1 h)]

/-- An ASCII byte is the character that it begins. -/
theorem ofUInt8_lead {c : Char} (h : lead c < 0x80) : Char.ofUInt8 (lead c) = c := by
  have hone := lead_lt_iff.1 h
  have hval : c.val.toNat ≤ 127 := Char.utf8Size_eq_one_iff.1 hone
  apply Char.ext
  rw [(lead_of_utf8Size_eq_one hone).1]
  apply UInt32.toNat_inj.1
  show c.val.toUInt8.toUInt32.toNat = c.val.toNat
  rw [UInt8.toNat_toUInt32, UInt32.toNat_toUInt8]
  omega

/-- Bytes of one character with an ASCII byte among them are that byte. -/
theorem eq_lead_of_mem {c : Char} {b : UInt8} (hb : b ∈ String.utf8EncodeChar c)
    (h : b < 0x80) : b = lead c := by
  rw [utf8EncodeChar_eq, List.mem_cons] at hb
  rcases hb with hb | hb
  · exact hb
  · have hcont := isContinuation_of_mem_trail hb
    rw [(leadWidth_ascii b h).2] at hcont
    cases hcont

end MonkeyTokens.Utf8
