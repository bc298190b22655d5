import SandboxedGo.Proofs.ConvertedTexts

/-!
# Texts cut into pieces

Offsets in a text count bytes, but a text is made of whole characters.  A piece that is cut between
characters has exactly the bytes between its offsets; a piece that is cut inside one is not
well-formed, and what is left of the character becomes replacement characters.  That two halves are
never the text again if it was cut inside a character is shown by counting: fewer characters begin
in the text than its halves have.  Main statement: `slice_text`.
-/

set_option autoImplicit false

namespace SandboxedGo.Text

variable {s part : String} {lo hi k : Nat}

/-! ## Exact pieces -/

/-- A character begins at an offset of a text, or the text ends there. -/
def IsBoundary (s : String) (k : Nat) : Prop :=
  ∃ front back, s = front ++ back ∧ front.utf8ByteSize = k

theorem isBoundary_iff_isValid : IsBoundary s k ↔ (⟨k⟩ : String.Pos.Raw).IsValid s := by
  rw [String.Pos.Raw.isValid_iff_exists_append]
  constructor
  · rintro ⟨front, back, whole, size⟩
    exact ⟨front, back, whole, congrArg String.Pos.Raw.mk size.symm⟩
  · rintro ⟨front, back, whole, ends⟩
    exact ⟨front, back, whole, (congrArg String.Pos.Raw.byteIdx ends).symm⟩

theorem isBoundary_zero (s : String) : IsBoundary s 0 := ⟨"", s, String.empty_append.symm, rfl⟩

theorem isBoundary_size (s : String) : IsBoundary s s.utf8ByteSize :=
  ⟨s, "", String.append_empty.symm, rfl⟩

/-- A piece of a text has the bytes between two offsets, and no others. -/
structure IsExact (s : String) (lo hi : Nat) (part : String) : Prop where
  size : part.utf8ByteSize = hi - lo
  bytes : ∀ i < hi - lo, byteAt? part i = byteAt? s (lo + i)

theorem byteAt?_eq (s : String) (i : Nat) : byteAt? s i = s.toByteArray.data[i]? := by
  unfold byteAt?
  by_cases within : (⟨i⟩ : String.Pos.Raw) < s.rawEndPos
  · have inside : i < s.toByteArray.data.size := within
    rw [dif_pos within, Array.getElem?_eq_getElem inside]
    rfl
  · have outside : s.toByteArray.data.size ≤ i := Nat.not_lt.mp within
    rw [dif_neg within, Array.getElem?_eq_none outside]

theorem isExact_iff_toByteArray (inside : hi ≤ s.utf8ByteSize) :
    IsExact s lo hi part ↔ part.toByteArray = s.toByteArray.extract lo hi := by
  have stop : min hi s.toByteArray.data.size = hi := Nat.min_eq_left inside
  have reads (i : Nat) : (s.toByteArray.extract lo hi).data[i]? =
      if i < hi - lo then s.toByteArray.data[lo + i]? else none := by
    rw [ByteArray.data_extract, Array.getElem?_extract, stop]
  constructor
  · rintro ⟨size, bytes⟩
    refine ByteArray.ext (Array.ext_getElem? fun i => ?_)
    rw [reads]
    by_cases held : i < hi - lo
    · rw [if_pos held, ← byteAt?_eq, ← byteAt?_eq, bytes i held]
    · rw [if_neg held]
      exact Array.getElem?_eq_none (Nat.le_trans (Nat.le_of_eq size) (Nat.not_lt.mp held))
  · intro is
    refine ⟨?_, fun i held => ?_⟩
    · show part.toByteArray.size = hi - lo
      rw [is, ByteArray.size_extract]
      exact congrArg (· - lo) stop
    · rw [byteAt?_eq, byteAt?_eq, is, reads, if_pos held]

theorem toByteArray_ofBytes {bytes : ByteArray} (valid : bytes.IsValidUTF8) :
    (ofBytes bytes).toByteArray = bytes := by
  rw [ofBytes, String.fromUTF8?, dif_pos valid]
  rfl

/-- A piece is exact if it is empty or cut at boundaries, and only then. -/
theorem byteSlice_isExact_iff (ordered : lo ≤ hi) (inside : hi ≤ s.utf8ByteSize) :
    IsExact s lo hi (byteSlice s lo hi) ↔ lo = hi ∨ IsBoundary s lo ∧ IsBoundary s hi := by
  have cut : (s.toByteArray.extract lo hi).IsValidUTF8 ↔
      lo = hi ∨ IsBoundary s lo ∧ IsBoundary s hi := by
    rw [isBoundary_iff_isValid, isBoundary_iff_isValid, ← String.Pos.Raw.mk.injEq]
    exact String.Pos.Raw.isValidUTF8_extract_iff ⟨lo⟩ ⟨hi⟩ ordered inside
  rw [isExact_iff_toByteArray inside, ← cut]
  constructor
  · intro is
    exact is ▸ (byteSlice s lo hi).isValidUTF8
  · exact toByteArray_ofBytes

/-! ## Halves -/

/-- How many characters begin in a sequence of bytes. -/
def beginnings (bytes : List UInt8) : Nat := bytes.countP fun b => b.IsUTF8FirstByte

theorem beginnings_cons (b : UInt8) (bytes : List UInt8) :
    beginnings (b :: bytes) = beginnings bytes + if b.IsUTF8FirstByte then 1 else 0 := by
  rw [beginnings, List.countP_cons, beginnings]
  simp only [decide_eq_true_eq]

theorem beginnings_append (bytes others : List UInt8) :
    beginnings (bytes ++ others) = beginnings bytes + beginnings others :=
  List.countP_append

theorem beginnings_utf8EncodeChar (c : Char) : beginnings (String.utf8EncodeChar c) = 1 := by
  have first (i : Nat) (within : i < (String.utf8EncodeChar c).length) :
      (String.utf8EncodeChar c)[i].IsUTF8FirstByte ↔ i = 0 :=
    UInt8.isUTF8FirstByte_getElem_utf8EncodeChar
  cases bytes : String.utf8EncodeChar c with
  | nil =>
      have length := String.length_utf8EncodeChar c
      rw [bytes] at length
      exact absurd length (Nat.ne_of_lt c.utf8Size_pos)
  | cons b rest =>
      simp only [bytes] at first
      have begins : b.IsUTF8FirstByte := (first 0 (Nat.zero_lt_succ _)).mpr rfl
      have others : beginnings rest = 0 := by
        refine List.countP_eq_zero.mpr fun d isIn => ?_
        obtain ⟨i, within, rfl⟩ := List.getElem_of_mem isIn
        rw [decide_eq_true_eq]
        exact fun again => Nat.succ_ne_zero i ((first (i + 1) (Nat.succ_lt_succ within)).mp again)
      rw [beginnings_cons, if_pos begins, others]

theorem beginnings_toByteArray (s : String) :
    beginnings s.toByteArray.data.toList = s.toList.length := by
  have all (chars : List Char) :
      beginnings (chars.flatMap String.utf8EncodeChar) = chars.length := by
    induction chars with
    | nil => rfl
    | cons c rest ih =>
        rw [List.flatMap_cons, beginnings_append, beginnings_utf8EncodeChar, ih, List.length_cons]
        omega
  have bytes : s.toByteArray = s.toList.utf8Encode := by
    rw [← String.toByteArray_ofList, String.ofList_toList]
  rw [bytes, ← all, List.utf8Encode, List.data_toByteArray]

theorem isContinuation_eq (b : UInt8) : isContinuation b = (0x80 ≤ b && b ≤ 0xbf) := by
  have all : ∀ n : Fin 256, isContinuation (UInt8.ofFin n) =
      (0x80 ≤ UInt8.ofFin n && UInt8.ofFin n ≤ 0xbf) := by
    decide +kernel
  exact all b.toFin

theorem not_isUTF8FirstByte_of_isContinuation {b : UInt8} (continues : isContinuation b = true) :
    ¬b.IsUTF8FirstByte := by
  have all : ∀ n : Fin 256, isContinuation (UInt8.ofFin n) = true →
      ¬(UInt8.ofFin n).IsUTF8FirstByte := by
    decide +kernel
  exact all b.toFin continues

theorem isContinuation_of_mayFollow {first b : UInt8} (follows : mayFollow first b = true) :
    isContinuation b = true := by
  unfold mayFollow at follows
  rw [isContinuation_eq] at follows ⊢
  simp only [Bool.and_eq_true, decide_eq_true_eq, UInt8.le_iff_toNat_le] at follows ⊢
  grind

/-- The bytes that are taken with the first one of a character begin no other one. -/
theorem beginnings_taken (a : UInt8) (rest : List UInt8) :
    beginnings (rest.take (firstChar a rest).2) = 0 := by
  have continuing : ∀ b ∈ rest.take (firstChar a rest).2, isContinuation b = true := by
    fun_cases firstChar a rest
    all_goals grind [isContinuation_of_mayFollow]
  refine List.countP_eq_zero.mpr fun b isIn => ?_
  rw [decide_eq_true_eq]
  exact not_isUTF8FirstByte_of_isContinuation (continuing b isIn)

theorem beginnings_le_decodeAfter (skip : Nat) (bytes : List UInt8) :
    beginnings (bytes.drop skip) ≤ (decodeAfter skip bytes).length := by
  fun_induction decodeAfter skip bytes with
  | case1 skip => exact Nat.le_of_eq (congrArg beginnings List.drop_nil)
  | case2 skip a rest ih => exact ih
  | case3 a rest c extra first ih =>
      have taken := beginnings_taken a rest
      rw [first] at taken
      rw [List.drop_zero, beginnings_cons, ← List.take_append_drop extra rest, beginnings_append,
        taken, List.take_append_drop, List.length_cons]
      split
      · omega
      · omega

theorem beginnings_le_ofBytes (bytes : ByteArray) :
    beginnings bytes.data.toList ≤ (ofBytes bytes).toList.length := by
  by_cases valid : bytes.IsValidUTF8
  · rw [← beginnings_toByteArray, toByteArray_ofBytes valid]
  · rw [ofBytes, String.fromUTF8?, dif_neg valid]
    dsimp only
    rw [String.toList_ofList, toList_eq]
    exact beginnings_le_decodeAfter 0 _

/-- Bytes that begin inside a character make one more character than begins in them. -/
theorem beginnings_lt_ofBytes {bytes : ByteArray} {b : UInt8} {rest : List UInt8}
    (list : bytes.data.toList = b :: rest) (inside : ¬b.IsUTF8FirstByte) :
    beginnings bytes.data.toList < (ofBytes bytes).toList.length := by
  have invalid : ¬bytes.IsValidUTF8 := by
    intro valid
    have held : 0 < bytes.size := by
      show 0 < bytes.data.size
      rw [← Array.length_toList, list]
      exact Nat.zero_lt_succ _
    have first := valid.isUTF8FirstByte_getElem_zero held
    have head : bytes[0] = b := by
      show bytes.data[0] = b
      rw [← Array.getElem_toList]
      simp only [list, List.getElem_cons_zero]
    exact inside (head ▸ first)
  have others := beginnings_le_decodeAfter (firstChar b rest).2 rest
  have taken := beginnings_taken b rest
  have split : beginnings rest = beginnings (rest.drop (firstChar b rest).2) := by
    rw [← Nat.zero_add (beginnings (rest.drop _)), ← taken, ← beginnings_append,
      List.take_append_drop]
  rw [ofBytes, String.fromUTF8?, dif_neg invalid]
  dsimp only
  rw [String.toList_ofList, toList_eq, list, beginnings_cons, if_neg inside, split]
  exact Nat.lt_succ_of_le others

theorem toList_extract (bytes : ByteArray) (lo hi : Nat) :
    (bytes.extract lo hi).data.toList = (bytes.data.toList.drop lo).take (hi - lo) := by
  rw [ByteArray.data_extract, Array.toList_extract, List.extract_eq_take_drop]

/-- Cut inside a character, a text falls into halves that have too many characters together. -/
theorem length_lt_halves (inside : k ≤ s.utf8ByteSize) (cut : ¬IsBoundary s k) :
    s.toList.length < (byteSlice s 0 k).toList.length +
      (byteSlice s k s.utf8ByteSize).toList.length := by
  have before : k < s.utf8ByteSize := by
    refine Nat.lt_of_le_of_ne inside fun all => cut ?_
    exact all ▸ isBoundary_size s
  have held : k < s.toByteArray.data.toList.length := by
    rwa [Array.length_toList]
  have whole := beginnings_toByteArray s
  have front : (s.toByteArray.extract 0 k).data.toList = s.toByteArray.data.toList.take k :=
    toList_extract s.toByteArray 0 k
  have back : (s.toByteArray.extract k s.utf8ByteSize).data.toList =
      s.toByteArray.data.toList[k] :: s.toByteArray.data.toList.drop (k + 1) := by
    have rest : (s.toByteArray.data.toList.drop k).length ≤ s.utf8ByteSize - k := by
      rw [List.length_drop, Array.length_toList]
      exact Nat.le_refl _
    rw [toList_extract, List.take_of_length_le rest, List.drop_eq_getElem_cons held]
  have continues : ¬(s.toByteArray.data.toList[k]).IsUTF8FirstByte := by
    intro first
    refine cut (isBoundary_iff_isValid.mpr (String.Pos.Raw.isValid_iff_isUTF8FirstByte.mpr ?_))
    refine .inr ⟨before, ?_⟩
    rwa [Array.getElem_toList] at first
  have fronts := beginnings_le_ofBytes (s.toByteArray.extract 0 k)
  have backs := beginnings_lt_ofBytes back continues
  rw [front] at fronts
  rw [back, ← List.drop_eq_getElem_cons held] at backs
  rw [← List.take_append_drop k s.toByteArray.data.toList, beginnings_append] at whole
  show s.toList.length < (ofBytes (s.toByteArray.extract 0 k)).toList.length +
    (ofBytes (s.toByteArray.extract k s.utf8ByteSize)).toList.length
  omega

/-- The halves of a text make the text again if it is cut at a boundary, and only then. -/
theorem byteSlice_append_iff (inside : k ≤ s.utf8ByteSize) :
    byteSlice s 0 k ++ byteSlice s k s.utf8ByteSize = s ↔ IsBoundary s k := by
  constructor
  · intro whole
    by_contra cut
    have longer := length_lt_halves inside cut
    rw [← List.length_append, ← String.toList_append, whole] at longer
    exact Nat.lt_irrefl _ longer
  · intro boundary
    have front := (byteSlice_isExact_iff (Nat.zero_le k) inside).mpr
      (.inr ⟨isBoundary_zero s, boundary⟩)
    have back := (byteSlice_isExact_iff inside (Nat.le_refl _)).mpr
      (.inr ⟨boundary, isBoundary_size s⟩)
    rw [isExact_iff_toByteArray inside] at front
    rw [isExact_iff_toByteArray (Nat.le_refl _)] at back
    refine String.toByteArray_inj.mp ?_
    rw [String.toByteArray_append, front, back, ByteArray.extract_append_extract,
      Nat.zero_min, Nat.max_eq_right inside]
    exact ByteArray.extract_zero_size

end SandboxedGo.Text

namespace SandboxedGo.Eval

open Text

variable {ev : Evaluator} {m : Machine} {s : String}

/-! ## Slice expressions -/

/-- The place that a bound of a slice expression stands for. -/
def boundPlace (given : Option Int64) (default : Nat) : Int :=
  match given with
  | none => default
  | some i => i.toInt

theorem bound_run_of_nonneg {given : Option Int64} {default place : Nat}
    (is : boundPlace given default = place) :
    (bound given default).run ev m = .ok place m := by
  cases given with
  | none =>
      obtain rfl : default = place := Int.ofNat_inj.mp is
      rfl
  | some i =>
      have exact : i.toInt = place := is
      have notNegative : ¬i < 0 := by
        rw [Int64.lt_iff_toInt_lt, exact]
        exact Int.not_lt.mpr (Int.natCast_nonneg _)
      unfold bound
      dsimp only
      rw [if_neg notNegative, exact]
      rfl

theorem bound_run_of_neg {given : Option Int64} {default : Nat} (ev : Evaluator) (m : Machine)
    (negative : boundPlace given default < 0) :
    ∃ cause, (bound given default).run ev m = .error (.signal (.panic cause)) m := by
  cases given with
  | none => exact absurd negative (Int.not_lt.mpr (Int.natCast_nonneg _))
  | some i =>
      have below : i < 0 := Int64.lt_iff_toInt_lt.mpr negative
      unfold bound
      dsimp only
      rw [if_pos below]
      exact ⟨_, rfl⟩

variable {low high : Option Int64} {lo hi : Nat}

theorem slice_run (lower : boundPlace low 0 = lo) (upper : boundPlace high s.utf8ByteSize = hi) :
    (slice (.string s) low high).run ev m =
      match cutText s lo hi with
      | .ok part => .ok (.string part) m
      | .error cause => .error (.signal (.panic cause)) m := by
  have unfolded : (slice (.string s) low high).run ev m =
      (bound low 0 >>= fun lo => bound high s.utf8ByteSize >>= fun hi =>
        match cutText s lo hi with
        | .ok part => pure (.string part)
        | .error cause => panic cause).run ev m := rfl
  rw [unfolded, bind_run_ok (bound_run_of_nonneg lower), bind_run_ok (bound_run_of_nonneg upper)]
  cases cutText s lo hi with
  | ok part => rfl
  | error cause => rfl

theorem cutText_inside (ordered : lo ≤ hi) (inside : hi ≤ s.utf8ByteSize) :
    cutText s lo hi = .ok (Text.byteSlice s lo hi) := by
  rw [cutText, if_neg (by omega)]

/-- The bounds of a slice expression are in order and inside of a text. -/
def InBounds (s : String) (low high : Option Int64) : Prop :=
  0 ≤ boundPlace low 0 ∧ boundPlace low 0 ≤ boundPlace high s.utf8ByteSize ∧
    boundPlace high s.utf8ByteSize ≤ s.utf8ByteSize

theorem slice_panics (outside : ¬InBounds s low high) :
    ∃ cause, (slice (.string s) low high).run ev m = .error (.signal (.panic cause)) m := by
  have unfolded : (slice (.string s) low high).run ev m =
      (bound low 0 >>= fun lo => bound high s.utf8ByteSize >>= fun hi =>
        match cutText s lo hi with
        | .ok part => pure (.string part)
        | .error cause => panic cause).run ev m := rfl
  rcases Int.lt_or_le (boundPlace low 0) 0 with negative | lower
  · obtain ⟨cause, stops⟩ := bound_run_of_neg ev m negative
    exact ⟨cause, unfolded.trans (bind_run_error stops _)⟩
  rcases Int.lt_or_le (boundPlace high s.utf8ByteSize) 0 with negative | upper
  · obtain ⟨cause, stops⟩ := bound_run_of_neg ev m negative
    refine ⟨cause, ?_⟩
    rw [unfolded, bind_run_ok (bound_run_of_nonneg (Int.toNat_of_nonneg lower).symm)]
    exact bind_run_error stops _
  · have refused : cutText s (boundPlace low 0).toNat (boundPlace high s.utf8ByteSize).toNat =
        .error (.boundsBeyondLength (boundPlace low 0).toNat
          (boundPlace high s.utf8ByteSize).toNat s.utf8ByteSize) := by
      rw [cutText, if_pos]
      unfold InBounds at outside
      omega
    rw [slice_run (Int.toNat_of_nonneg lower).symm (Int.toNat_of_nonneg upper).symm, refused]
    exact ⟨_, rfl⟩

/-- Between bounds that are in order and inside, a text is cut at their bytes. -/
theorem slice_cuts (within : InBounds s low high) :
    (slice (.string s) low high).run ev m =
      .ok (.string (Text.byteSlice s (boundPlace low 0).toNat
        (boundPlace high s.utf8ByteSize).toNat)) m := by
  obtain ⟨lower, ordered, inside⟩ := within
  have upper := Int.le_trans lower ordered
  rw [slice_run (Int.toNat_of_nonneg lower).symm (Int.toNat_of_nonneg upper).symm,
    cutText_inside (by omega) (by omega)]

/-- The halves of a text, put together. -/
def halves (s : String) (k : Int64) : Eval Value := do
  let front ← slice (.string s) none (some k)
  let back ← slice (.string s) (some k) none
  binary .add front back

theorem add_texts_run (front back : String) :
    (binary .add (.string front) (.string back)).run ev m =
      if m.limits.maxAlloc < front.utf8ByteSize + back.utf8ByteSize then
        .error (.signal (.panic .stringTooLong)) m
      else .ok (.string (front ++ back)) m := by
  have unfolded : binary .add (.string front) (.string back) =
      (checkAlloc (front.utf8ByteSize + back.utf8ByteSize) .stringTooLong >>= fun _ =>
        pure (.string (front ++ back))) := rfl
  rw [unfolded]
  by_cases tooLong : m.limits.maxAlloc < front.utf8ByteSize + back.utf8ByteSize
  · rw [if_pos tooLong, bind_run_error (checkAlloc_panics tooLong _)]
  · rw [if_neg tooLong, bind_run_ok (checkAlloc_passes (Nat.not_lt.mp tooLong) _)]
    rfl

/-- The halves of a text make the text again if it is cut at a boundary and within the cap. -/
theorem halves_run_iff {k : Int64} (lower : 0 ≤ k.toInt) (upper : k.toInt ≤ s.utf8ByteSize) :
    (halves s k).run ev m = .ok (.string s) m ↔
      IsBoundary s k.toInt.toNat ∧ s.utf8ByteSize ≤ m.limits.maxAlloc := by
  have front : (slice (.string s) none (some k)).run ev m =
      .ok (.string (Text.byteSlice s 0 k.toInt.toNat)) m :=
    slice_cuts ⟨Int.le_refl 0, lower, upper⟩
  have back : (slice (.string s) (some k) none).run ev m =
      .ok (.string (Text.byteSlice s k.toInt.toNat s.utf8ByteSize)) m :=
    slice_cuts ⟨lower, upper, Int.le_refl _⟩
  unfold halves
  rw [bind_run_ok front, bind_run_ok back, add_texts_run, ← byteSlice_append_iff (by omega),
    ← String.utf8ByteSize_append]
  constructor
  · intro ran
    split at ran
    · cases ran
    · rename_i within
      injection ran with same
      injection same with same
      rw [same] at within
      exact ⟨same, Nat.not_lt.mp within⟩
  · rintro ⟨same, within⟩
    rw [same, if_neg (Nat.not_lt.mpr within)]

/-- What a program sees of a text is its bytes: their number is its length, and an index selects one
of them. -/
structure SeesBytes (ev : Evaluator) (m : Machine) (s : String) : Prop where
  length : (lengthOf (.string s)).run ev m = .ok (.int (Int64.ofNat s.utf8ByteSize)) m
  index (i : Int64) (lower : 0 ≤ i.toInt) (upper : i.toInt < s.utf8ByteSize) :
    ∃ b, byteAt? s i.toInt.toNat = some b ∧
      (index (.string s) (.int i)).run ev m = .ok (.int (Int64.ofNat b.toNat)) m

theorem seesBytes (ev : Evaluator) (m : Machine) (s : String) : SeesBytes ev m s where
  length := rfl
  index i lower upper := by
    have inside : i.toInt.toNat < s.toByteArray.data.size := by
      show i.toInt.toNat < s.utf8ByteSize
      omega
    have held : byteAt? s i.toInt.toNat = some s.toByteArray.data[i.toInt.toNat] := by
      rw [byteAt?_eq, Array.getElem?_eq_getElem inside]
    have allowed : ¬(i < 0 || decide (s.utf8ByteSize ≤ i.toInt.toNat)) = true := by
      rw [Bool.or_eq_true, decide_eq_true_eq, decide_eq_true_eq, Int64.lt_iff_toInt_lt]
      show ¬(i.toInt < 0 ∨ s.utf8ByteSize ≤ i.toInt.toNat)
      omega
    have indexed : (asIndex (.int i) s.utf8ByteSize).run ev m = .ok i.toInt.toNat m := by
      have unfolded : asIndex (.int i) s.utf8ByteSize =
          if i < 0 || decide (s.utf8ByteSize ≤ i.toInt.toNat) then
            panic (.indexOutOfRange i.toInt s.utf8ByteSize)
          else pure i.toInt.toNat := rfl
      rw [unfolded, if_neg allowed]
      rfl
    refine ⟨_, held, ?_⟩
    have unfolded : (Eval.index (.string s) (.int i)).run ev m =
        (asIndex (.int i) s.utf8ByteSize >>= fun i =>
          pure (.int (Int64.ofNat ((byteAt? s i).getD 0).toNat))).run ev m := rfl
    rw [unfolded, bind_run_ok indexed, held]
    rfl

/-- A program sees the bytes of every text.  For every text and all bounds: a piece is cut where the
bounds are in order and inside, and it has the bytes between them exactly if it is empty or both
bounds are at characters; other bounds panic.  The halves of a text are the text again exactly at
its characters, within the cap. -/
theorem slice_text (ev : Evaluator) (m : Machine) (s : String) (low high : Option Int64) :
    (∀ text, SeesBytes ev m text) ∧
      (InBounds s low high →
        ∃ part, (slice (.string s) low high).run ev m = .ok (.string part) m ∧
          (IsExact s (boundPlace low 0).toNat (boundPlace high s.utf8ByteSize).toNat part ↔
            boundPlace low 0 = boundPlace high s.utf8ByteSize ∨
              IsBoundary s (boundPlace low 0).toNat ∧
                IsBoundary s (boundPlace high s.utf8ByteSize).toNat)) ∧
      (¬InBounds s low high →
        ∃ cause, (slice (.string s) low high).run ev m = .error (.signal (.panic cause)) m) ∧
      ∀ k : Int64, 0 ≤ k.toInt → k.toInt ≤ s.utf8ByteSize →
        ((halves s k).run ev m = .ok (.string s) m ↔
          IsBoundary s k.toInt.toNat ∧ s.utf8ByteSize ≤ m.limits.maxAlloc) := by
  refine ⟨seesBytes ev m, fun within => ⟨_, slice_cuts within, ?exact⟩, slice_panics,
    fun k => halves_run_iff⟩
  obtain ⟨lower, ordered, inside⟩ := within
  rw [byteSlice_isExact_iff (by omega) (by omega)]
  refine or_congr_left ?_
  omega

/-- Between a letter and an accented one there is a boundary, and the text is as long as the cap. -/
theorem slice_text_accented :
    let m : Machine := { Machine.initial {} with limits := { maxAlloc := 3 } }
    InBounds "aé" (some 1) none ∧ ¬InBounds "aé" none (some 4) ∧
      (∃ part, (slice (.string "aé") (some 1) none).run (Evaluator.ofDepth 0) m =
        .ok (.string part) m ∧ IsExact "aé" 1 3 part) ∧
      (∃ cause, (slice (.string "aé") none (some 4)).run (Evaluator.ofDepth 0) m =
        .error (.signal (.panic cause)) m) ∧
      (halves "aé" 1).run (Evaluator.ofDepth 0) m = .ok (.string "aé") m := by
  intro m
  have boundary : IsBoundary "aé" 1 := ⟨"a", "é", rfl, rfl⟩
  have inside : InBounds "aé" (some 1) none := by
    unfold InBounds
    decide
  have outside : ¬InBounds "aé" none (some 4) := by
    unfold InBounds
    decide
  obtain ⟨-, cuts, -, whole⟩ := slice_text (Evaluator.ofDepth 0) m "aé" (some 1) none
  obtain ⟨part, cut, exact⟩ := cuts inside
  exact ⟨inside, outside, ⟨part, cut, exact.mpr (.inr ⟨boundary, isBoundary_size _⟩)⟩,
    (slice_text (Evaluator.ofDepth 0) m "aé" none (some 4)).2.2.1 outside,
    (whole 1 (by decide) (by decide)).mpr ⟨boundary, by decide⟩⟩

/-- The first byte of an accented letter is a replacement character, which has three bytes. -/
theorem first_byte_is_replaced :
    (slice (.string "é") (some 0) (some 1)).run (Evaluator.ofDepth 0) (Machine.initial {}) =
        .ok (.string "\ufffd") (Machine.initial {}) ∧
      ¬IsExact "é" 0 1 "\ufffd" := by
  have cut : Text.byteSlice "é" 0 1 = "\ufffd" := by decide +kernel
  have inside : InBounds "é" (some 0) (some 1) := by
    unfold InBounds
    decide
  refine ⟨?_, fun exact => absurd exact.size (by decide)⟩
  rw [slice_cuts inside]
  exact congrArg (fun part => EStateM.Result.ok (Value.string part) _) cut

end SandboxedGo.Eval
