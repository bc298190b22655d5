import SandboxedGo.Proofs.SlicedTexts
import SandboxedGo.Proofs.TextSizes

/-!
# Offsets and bytes

A reader that goes by bytes may stand inside a character.  The bytes there are no characters of the
basic alphabet, and so a single byte tells such a character, and no other byte is taken for one.
-/

set_option autoImplicit false

namespace SandboxedGo.Text

/-! ## The bytes of characters -/

theorem encoded_cons (c : Char) (rest : List Char) :
    encoded (c :: rest) = String.utf8EncodeChar c ++ encoded rest := List.flatMap_cons

theorem encoded_append (front back : List Char) :
    encoded (front ++ back) = encoded front ++ encoded back := List.flatMap_append

theorem length_encoded (chars : List Char) : (encoded chars).length = byteLength chars := by
  induction chars with
  | nil => rfl
  | cons c rest ih =>
      rw [encoded_cons, List.length_append, String.length_utf8EncodeChar, ih, byteLength]

theorem toByteArray_ofList (chars : List Char) :
    (String.ofList chars).toByteArray = ⟨(encoded chars).toArray⟩ := by
  rw [String.toByteArray_ofList, List.utf8Encode, encoded]
  exact ByteArray.ext List.data_toByteArray

/-- A character of the basic alphabet is its only byte; the bytes of the others are above these. -/
theorem utf8EncodeChar_cases (c : Char) :
    (∃ b, String.utf8EncodeChar c = [b] ∧ Char.ofUInt8 b = c) ∨
      (128 ≤ c.toNat ∧ ∀ b ∈ String.utf8EncodeChar c, 128 ≤ b.toNat) := by
  rcases Nat.lt_or_ge c.toNat 128 with basic | wide
  · refine .inl ⟨_, utf8EncodeChar_of_lt basic, Char.toNat_inj.mp ?_⟩
    show (UInt8.ofNat c.toNat).toNat = c.toNat
    rw [UInt8.toNat_ofNat', Nat.mod_eq_of_lt (by omega)]
  · refine .inr ⟨wide, fun b isIn => ?_⟩
    have above : ¬ c.val.toNat ≤ 127 := Nat.not_le_of_gt wide
    simp only [String.utf8EncodeChar, if_neg above] at isIn
    split at isIn
    · simp only [List.mem_cons, List.not_mem_nil, or_false] at isIn
      rcases isIn with rfl | rfl <;> simp only [UInt8.toNat_ofNat'] <;> omega
    split at isIn
    · simp only [List.mem_cons, List.not_mem_nil, or_false] at isIn
      rcases isIn with rfl | rfl | rfl <;> simp only [UInt8.toNat_ofNat'] <;> omega
    · simp only [List.mem_cons, List.not_mem_nil, or_false] at isIn
      rcases isIn with rfl | rfl | rfl | rfl <;> simp only [UInt8.toNat_ofNat'] <;> omega

theorem utf8EncodeChar_cons (c : Char) : ∃ b more, String.utf8EncodeChar c = b :: more :=
  List.exists_cons_of_ne_nil String.utf8EncodeChar_ne_nil

theorem tail_basic {c : Char} {b : UInt8} {more : List UInt8} (basic : c.toNat < 128)
    (bytes : String.utf8EncodeChar c = b :: more) : more = [] := by
  rcases utf8EncodeChar_cases c with ⟨_, single, _⟩ | ⟨wide, _⟩
  · rw [single] at bytes
    exact (List.cons.inj bytes).2.symm
  · exact absurd basic (Nat.not_lt_of_ge wide)

theorem encoded_basic {d : Char} (basic : d.toNat < 128) (rest : List Char) :
    ∃ b, encoded (d :: rest) = b :: encoded rest ∧ Char.ofUInt8 b = d := by
  rcases utf8EncodeChar_cases d with ⟨b, single, is⟩ | ⟨wide, _⟩
  · exact ⟨b, by rw [encoded_cons, single]; rfl, is⟩
  · exact absurd basic (Nat.not_lt_of_ge wide)

/-- What is the same for all characters outside of the basic alphabet can be asked of the first
byte. -/
theorem first_byte {α : Type} (f : Char → α) {other : α}
    (basic : ∀ d : Char, 128 ≤ d.toNat → f d = other) {c : Char} {b : UInt8} {more : List UInt8}
    (bytes : String.utf8EncodeChar c = b :: more) : f (Char.ofUInt8 b) = f c := by
  rcases utf8EncodeChar_cases c with ⟨b', single, is⟩ | ⟨wide, high⟩
  · rw [single] at bytes
    cases bytes
    rw [is]
  · have above : 128 ≤ (Char.ofUInt8 b).toNat := high b (bytes ▸ List.mem_cons_self)
    rw [basic c wide, basic _ above]

theorem first_byte_iff {c d : Char} {b : UInt8} {more : List UInt8} (basic : d.toNat < 128)
    (bytes : String.utf8EncodeChar c = b :: more) : Char.ofUInt8 b = d ↔ c = d := by
  refine Eq.to_iff (first_byte (· = d) (fun e wide => eq_false ?_) bytes)
  rintro rfl
  exact absurd basic (Nat.not_lt_of_ge wide)

/-- A byte of a character that is one of the basic alphabet is the character. -/
theorem eq_of_byte {b : UInt8} {c d : Char} (isIn : b ∈ String.utf8EncodeChar c)
    (basic : d.toNat < 128) (is : Char.ofUInt8 b = d) : c = d := by
  rcases utf8EncodeChar_cases c with ⟨b', single, same⟩ | ⟨_, high⟩
  · rw [single] at isIn
    obtain rfl := List.mem_singleton.mp isIn
    exact same.symm.trans is
  · have above : 128 ≤ (Char.ofUInt8 b).toNat := high b isIn
    rw [is] at above
    omega

/-- The bytes of another character are none of some characters of the basic alphabet. -/
theorem bytes_not_mem {c : Char} {ds : List Char} (other : c ∉ ds)
    (basic : ∀ d ∈ ds, d.toNat < 128) : ∀ b ∈ String.utf8EncodeChar c, Char.ofUInt8 b ∉ ds := by
  intro b isIn isOne
  exact other (eq_of_byte isIn (basic _ isOne) rfl ▸ isOne)

/-- Bytes that stand inside a character. -/
def Continues (bytes : List UInt8) : Prop := ∀ b ∈ bytes, ¬ b.IsUTF8FirstByte

theorem continues_nil : Continues [] := fun _ isIn => absurd isIn List.not_mem_nil

theorem continues_drop (c : Char) (n : Nat) :
    Continues ((String.utf8EncodeChar c).drop (n + 1)) := by
  intro b isIn
  obtain ⟨i, within, rfl⟩ := List.getElem_of_mem isIn
  rw [List.getElem_drop, UInt8.isUTF8FirstByte_getElem_utf8EncodeChar]
  omega

theorem continues_tail {c : Char} {b : UInt8} {more : List UInt8}
    (bytes : String.utf8EncodeChar c = b :: more) : Continues more := by
  have inside := continues_drop c 0
  rwa [bytes] at inside

theorem Continues.ne {bytes : List UInt8} (continues : Continues bytes) {b : UInt8}
    (isIn : b ∈ bytes) {d : Char} (basic : d.toNat < 128) : Char.ofUInt8 b ≠ d := by
  have all : ∀ n : Fin 256, ¬ (UInt8.ofFin n).IsUTF8FirstByte → 128 ≤ (UInt8.ofFin n).toNat := by
    decide +kernel
  rintro rfl
  exact absurd (all b.toFin (continues b isIn)) (Nat.not_le_of_gt basic)

theorem Continues.not_mem {bytes : List UInt8} (continues : Continues bytes) {ds : List Char}
    (basic : ∀ d ∈ ds, d.toNat < 128) : ∀ b ∈ bytes, Char.ofUInt8 b ∉ ds :=
  fun _ isIn isOne => continues.ne isIn (basic _ isOne) rfl

theorem not_isValidUTF8_of_continues {chars : List Char} {front back : List UInt8}
    (bytes : encoded chars = front ++ back) (some_ : back ≠ []) (continues : Continues back) :
    ¬ (⟨front.toArray⟩ : ByteArray).IsValidUTF8 := by
  intro valid
  have whole := toByteArray_ofList chars
  have size : front.length ≤ (String.ofList chars).utf8ByteSize := by
    rw [byteLength_ofList, ← length_encoded, bytes, List.length_append]
    exact Nat.le_add_right _ _
  have beginning : (String.ofList chars).toByteArray.extract 0 front.length = ⟨front.toArray⟩ := by
    refine ByteArray.ext (Array.ext' ?_)
    rw [toList_extract, whole, bytes]
    simp
  obtain ⟨front', back', text, ends⟩ := isBoundary_iff_isValid.mpr
    (String.Pos.Raw.isValid_iff_isValidUTF8_extract_zero.mpr
      ⟨(size : (⟨front.length⟩ : String.Pos.Raw) ≤ _), beginning ▸ valid⟩)
  -- What is left of the text begins with a character.
  have parts : front ++ back = encoded front'.toList ++ encoded back'.toList := by
    rw [← bytes, ← encoded_append, ← String.toList_append, ← text, String.toList_ofList]
  have cut : front.length = (encoded front'.toList).length := by
    rw [length_encoded, byteLength_toList, ends]
  obtain ⟨-, rfl⟩ := List.append_inj parts cut
  cases left : back'.toList with
  | nil =>
      rw [left] at some_
      exact some_ rfl
  | cons c rest =>
      obtain ⟨b, more, are⟩ := utf8EncodeChar_cons c
      have isIn : b ∈ encoded back'.toList := by
        rw [left, encoded_cons, are]
        exact List.mem_cons_self
      have isFirst : 0 < (String.utf8EncodeChar c).length := by
        rw [are]
        exact Nat.zero_lt_succ _
      have first := (@UInt8.isUTF8FirstByte_getElem_utf8EncodeChar c 0 isFirst).mpr rfl
      simp only [are, List.getElem_cons_zero] at first
      exact continues b isIn first

/-- Up to a character of the basic alphabet the bytes are those of the characters. -/
theorem takeWhile_encoded {d : Char} (basic : d.toNat < 128) (chars : List Char) :
    (encoded chars).takeWhile (Char.ofUInt8 · ≠ d) = encoded (chars.takeWhile (· ≠ d)) := by
  induction chars with
  | nil => rfl
  | cons c rest ih =>
      by_cases same : c = d
      · subst same
        rcases utf8EncodeChar_cases c with ⟨b, single, is⟩ | ⟨wide, _⟩
        · rw [encoded_cons, single, List.takeWhile_cons_of_neg (by simp)]
          exact List.takeWhile_cons_of_neg (by simp [is])
        · exact absurd basic (Nat.not_lt_of_ge wide)
      · have all : ∀ b ∈ String.utf8EncodeChar c, decide (Char.ofUInt8 b ≠ d) = true :=
          fun b isIn => decide_eq_true fun is => same (eq_of_byte isIn basic is)
        rw [List.takeWhile_cons_of_pos (by simp [same]), encoded_cons, encoded_cons,
          List.takeWhile_append_of_pos all, ih]

/-! ## Places -/

/-- The bytes from an offset on. -/
def BytesFrom (bytes : List UInt8) (i : Nat) (left : List UInt8) : Prop :=
  ∃ front, bytes = front ++ left ∧ front.length = i

namespace BytesFrom

variable {bytes taken left : List UInt8} {b : UInt8} {i : Nat}

theorem length (stands : BytesFrom bytes i left) : bytes.length = i + left.length := by
  obtain ⟨front, rfl, rfl⟩ := stands
  exact List.length_append

theorem drop (stands : BytesFrom bytes i left) : bytes.drop i = left := by
  obtain ⟨front, rfl, rfl⟩ := stands
  exact List.drop_left

theorem skip (stands : BytesFrom bytes i (taken ++ left)) :
    BytesFrom bytes (i + taken.length) left := by
  obtain ⟨front, rfl, rfl⟩ := stands
  exact ⟨front ++ taken, (List.append_assoc ..).symm, List.length_append⟩

theorem next (stands : BytesFrom bytes i (b :: left)) : BytesFrom bytes (i + 1) left :=
  (show BytesFrom bytes i ([b] ++ left) from stands).skip

theorem inside (stands : BytesFrom bytes i (b :: left)) : i < bytes.length := by
  rw [stands.length, List.length_cons]
  omega

theorem getElem (stands : BytesFrom bytes i (b :: left)) (inside : i < bytes.length) :
    bytes[i] = b := by
  obtain ⟨front, rfl, rfl⟩ := stands
  exact List.getElem_append_right (Nat.le_refl _) |>.trans (by simp)

theorem getElem? (stands : BytesFrom bytes i left) : bytes[i]? = left.head? := by
  obtain ⟨front, rfl, rfl⟩ := stands
  rw [List.getElem?_append_right (Nat.le_refl _), Nat.sub_self, List.head?_eq_getElem?]

theorem ends (stands : BytesFrom bytes i []) : i = bytes.length := by
  rw [stands.length, List.length_nil, Nat.add_zero]

theorem all (bytes : List UInt8) : BytesFrom bytes bytes.length [] :=
  ⟨bytes, (List.append_nil _).symm, rfl⟩

theorem between (stands : BytesFrom bytes i (taken ++ left)) :
    bytesBetween? i (i + taken.length) bytes = some taken := by
  obtain ⟨front, rfl, rfl⟩ := stands
  have inside : front.length + taken.length ≤ (front ++ (taken ++ left)).length := by
    simp only [List.length_append]
    omega
  rw [bytesBetween?, if_pos ⟨Nat.le_add_right _ _, inside⟩, ← List.append_assoc,
    ← List.length_append, List.take_left, List.drop_left]

end BytesFrom

/-- The characters from an offset on. -/
def Reached (chars : List Char) (i : Nat) (left : List Char) : Prop :=
  ∃ front, chars = front ++ left ∧ byteLength front = i

namespace Reached

variable {chars taken left : List Char} {i j : Nat}

theorem start (chars : List Char) : Reached chars 0 chars := ⟨[], rfl, rfl⟩

theorem bytes (reached : Reached chars i left) : BytesFrom (encoded chars) i (encoded left) := by
  obtain ⟨front, rfl, rfl⟩ := reached
  exact ⟨encoded front, encoded_append front left, length_encoded front⟩

theorem skip (reached : Reached chars i (taken ++ left)) :
    Reached chars (i + byteLength taken) left := by
  obtain ⟨front, rfl, rfl⟩ := reached
  exact ⟨front ++ taken, (List.append_assoc ..).symm, byteLength_append front taken⟩

theorem next {c : Char} (reached : Reached chars i (c :: left)) :
    Reached chars (i + c.utf8Size) left :=
  (show Reached chars i ([c] ++ left) from reached).skip

theorem offset_eq (reached : Reached chars i (taken ++ left))
    (stands : BytesFrom (encoded chars) j (encoded left)) : j = i + byteLength taken := by
  have one := stands.length
  have other := reached.skip.bytes.length
  omega

theorem behind? (reached : Reached chars i left) : Text.behind? i chars = some left := by
  obtain ⟨front, rfl, rfl⟩ := reached
  exact behind?_byteLength front left

theorem between? (reached : Reached chars i (taken ++ left)) :
    Text.between? i (i + byteLength taken) chars = some taken := by
  obtain ⟨front, rfl, rfl⟩ := reached
  rw [Text.between?, ← byteLength_append, ← List.append_assoc, cutAt?_byteLength]
  exact behind?_byteLength front taken

theorem isBoundary_iff {source : String} :
    IsBoundary source i ↔ ∃ left, Reached source.toList i left := by
  constructor
  · rintro ⟨front, back, rfl, rfl⟩
    exact ⟨back.toList, front.toList, String.toList_append, byteLength_toList front⟩
  · rintro ⟨left, front, text, rfl⟩
    refine ⟨String.ofList front, String.ofList left, ?_, byteLength_ofList front⟩
    rw [← String.ofList_append, ← text, String.ofList_toList]

end Reached

end SandboxedGo.Text
