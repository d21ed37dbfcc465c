import DbLab.Py.Canonical

/-!
# How long texts are

Bounds for the text of a value and for its encoding.
-/

namespace DbLab.Py

/-- A character has at most four bytes. -/
lemma encodeChar_length {c : Nat} {b : Bytes} (h : encodeChar c = .ok b) : b.length ≤ 4 := by
  unfold encodeChar at h
  split_ifs at h <;> cases h <;> simp

/-- A text at most four times its length. -/
lemma encode_length {s : Str} {b : Bytes} (h : encode s = .ok b) : b.length ≤ 4 * s.length := by
  induction s generalizing b with
  | nil =>
    cases h
    exact le_rfl
  | cons c s ih =>
    obtain ⟨x, first, h⟩ := bind_ok.1 h
    obtain ⟨y, rest, h⟩ := bind_ok.1 h
    cases h
    have head := encodeChar_length first
    have tail := ih rest
    rw [List.length_append, List.length_cons]
    omega

/-- An escape at most six letters. -/
lemma escapeChar_length (c : Nat) : (escapeChar c).length ≤ 6 := by
  unfold escapeChar
  split_ifs <;> simp [str]

/-- A quoted text at most six times its length. -/
lemma quote_length (s : Str) : (quote s).length ≤ 6 * s.length + 2 := by
  have inner : (s.flatMap escapeChar).length ≤ 6 * s.length := by
    induction s with
    | nil => exact le_rfl
    | cons c s ih =>
      have head := escapeChar_length c
      rw [List.flatMap_cons, List.length_append, List.length_cons]
      omega
  rw [quote, List.length_cons, List.length_append, List.length_singleton]
  omega

/-- The bytes that a character takes. -/
def utf8Width (c : Nat) : Nat :=
  if c < 0x80 then 1 else if c < 0x800 then 2 else if c < 0x10000 then 3 else 4

def utf8Size (s : Str) : Nat := (s.map utf8Width).sum

/-- The bytes of one character more. -/
lemma utf8Size_cons (c : Nat) (s : Str) : utf8Size (c :: s) = utf8Width c + utf8Size s := by
  rw [utf8Size, List.map_cons, List.sum_cons, utf8Size]

/-- The bytes of two texts. -/
lemma utf8Size_append (s t : Str) : utf8Size (s ++ t) = utf8Size s + utf8Size t := by
  rw [utf8Size, List.map_append, List.sum_append, utf8Size, utf8Size]

/-- A character has its bytes. -/
lemma encodeChar_width {c : Nat} {b : Bytes} (h : encodeChar c = .ok b) :
    b.length = utf8Width c := by
  unfold encodeChar at h
  unfold utf8Width
  split_ifs at h ⊢ <;> cases h <;> rfl

/-- A text has its bytes. -/
lemma encode_size {s : Str} {b : Bytes} (h : encode s = .ok b) : b.length = utf8Size s := by
  induction s generalizing b with
  | nil =>
    cases h
    rfl
  | cons c s ih =>
    obtain ⟨x, char, h⟩ := bind_ok.1 h
    obtain ⟨y, rest, h⟩ := bind_ok.1 h
    cases h
    rw [List.length_append, encodeChar_width char, ih rest, utf8Size_cons]

/-- A character has at most four bytes. -/
lemma utf8Width_le (c : Nat) : utf8Width c ≤ 4 := by
  unfold utf8Width
  split_ifs <;> decide

/-- An ASCII character has one byte. -/
lemma utf8Width_ascii {c : Nat} (h : c < 128) : utf8Width c = 1 := if_pos h

/-- An ASCII text has one byte for each character. -/
lemma utf8Size_ascii {s : Str} (h : ∀ c ∈ s, c < 128) : utf8Size s = s.length := by
  induction s with
  | nil => rfl
  | cons c s ih =>
    rw [utf8Size_cons, utf8Width_ascii (h c List.mem_cons_self),
      ih fun d m => h d (List.mem_cons_of_mem _ m), List.length_cons, Nat.add_comm]

/-- An escape is of ASCII characters, or the character itself. -/
lemma escapeChar_size (c : Nat) : utf8Size (escapeChar c) ≤ 6 := by
  have control : ∀ c < 32, (∀ d ∈ escapeChar c, d < 128) ∧ (escapeChar c).length ≤ 6 := by decide
  by_cases small : c < 32
  · rw [utf8Size_ascii (control c small).1]
    exact (control c small).2
  · have width := utf8Width_le c
    unfold escapeChar
    split_ifs
    · decide
    · decide
    · omega
    · omega
    · omega
    · omega
    · omega
    · rw [utf8Size_cons]
      exact width.trans (by decide)

/-- The bytes of a quoted text. -/
lemma quote_size (s : Str) : utf8Size (quote s) ≤ 6 * s.length + 2 := by
  have inner : utf8Size (s.flatMap escapeChar) ≤ 6 * s.length := by
    induction s with
    | nil => exact le_rfl
    | cons c s ih =>
      have head := escapeChar_size c
      rw [List.flatMap_cons, utf8Size_append, List.length_cons]
      omega
  have mark : utf8Size [34] = 1 := rfl
  have width : utf8Width 34 = 1 := rfl
  rw [quote, utf8Size_cons, utf8Size_append, mark, width]
  omega

/-- A character that JSON writes as it is. -/
def unescaped (c : Nat) : Bool := 32 ≤ c && c < 127 && c ≠ 34 && c ≠ 92

/-- Where nothing is escaped, quoting adds two bytes. -/
lemma quote_unescaped {s : Str} (plain : ∀ c ∈ s, unescaped c = true) :
    utf8Size (quote s) = s.length + 2 := by
  have same : s.flatMap escapeChar = s := by
    refine (List.flatMap_congr fun c m => ?_).trans (List.flatMap_singleton' s)
    have h := plain c m
    simp only [unescaped, Bool.and_eq_true, decide_eq_true_eq] at h
    unfold escapeChar
    rw [if_neg h.1.2, if_neg h.2, if_neg (by omega), if_neg (by omega), if_neg (by omega),
      if_neg (by omega), if_neg (by omega), if_neg (by omega)]
  have ascii : ∀ c ∈ s, c < 128 := by
    intro c m
    have h := plain c m
    simp only [unescaped, Bool.and_eq_true, decide_eq_true_eq] at h
    omega
  have mark : utf8Size [34] = 1 := rfl
  have width : utf8Width 34 = 1 := rfl
  rw [quote, same, utf8Size_cons, utf8Size_append, mark, width, utf8Size_ascii ascii]
  omega

/-- The separator of items is short. -/
lemma itemSep_length (o : Dump) : o.itemSep.length ≤ 2 := by
  rw [Dump.itemSep]
  split <;> decide

/-- The separator after a key is short. -/
lemma keySep_length (o : Dump) : o.keySep.length ≤ 2 := by
  rw [Dump.keySep]
  split <;> decide

/-- Each of the parts comes with one separator at most. -/
lemma intercalate_length {sep : Str} (short : sep.length ≤ 2) (ts : List Str) :
    (sep.intercalate ts).length ≤ (ts.map fun t => t.length + 2).sum := by
  cases ts with
  | nil => exact le_rfl
  | cons t ts =>
    rw [intercalate_cons, List.length_append, List.map_cons, List.sum_cons]
    have rest : (ts.flatMap fun t => sep ++ t).length ≤ (ts.map fun t => t.length + 2).sum := by
      induction ts with
      | nil => exact le_rfl
      | cons t ts ih =>
        rw [List.flatMap_cons, List.length_append, List.length_append, List.map_cons, List.sum_cons]
        omega
    omega

variable [Interpreter]

mutual
/-- A bound for the length of the text of a value, a character of a string escaped as six. -/
def Value.size : Value → Nat
  | .null => 4
  | .bool _ => 5
  | .int n => (digitChars n.natAbs).length + 1
  | .float x => (Interpreter.repr x).length
  | .str s => 6 * s.length + 2
  | .list xs => sizeList xs + 2
  | .dict ms => sizeDict ms + 2
def Value.sizeList : List Value → Nat
  | [] => 0
  | x :: xs => x.size + 2 + sizeList xs
def Value.sizeDict : List (Str × Value) → Nat
  | [] => 0
  | (k, v) :: ms => 6 * k.length + v.size + 6 + sizeDict ms
end

/-- The size of a list. -/
lemma sizeList_eq (xs : List Value) : Value.sizeList xs = (xs.map fun x => x.size + 2).sum := by
  induction xs with
  | nil => rfl
  | cons x xs ih => rw [Value.sizeList, ih, List.map_cons, List.sum_cons]

/-- The size of a dictionary. -/
lemma sizeDict_eq (ms : List (Str × Value)) :
    Value.sizeDict ms = (ms.map fun e => 6 * e.1.length + e.2.size + 6).sum := by
  induction ms with
  | nil => rfl
  | cons e ms ih => rw [Value.sizeDict, ih, List.map_cons, List.sum_cons]

/-- The order of members makes no difference to the size. -/
lemma sizeDict_perm {ms ns : List (Str × Value)} (perm : ms.Perm ns) :
    Value.sizeDict ms = Value.sizeDict ns := by
  rw [sizeDict_eq, sizeDict_eq]
  exact (perm.map _).sum_eq

/-- A text is within the size of its value. -/
theorem Legible.textOf_length {d : Nat} {v : Value} (h : Legible d v) (o : Dump) :
    (textOf o v).length ≤ v.size := by
  induction h with
  | null => exact le_of_eq rfl
  | @bool _ b =>
    cases b with
    | true => exact (by decide : (Py.str "true").length ≤ 5)
    | false => exact (by decide : (Py.str "false").length ≤ 5)
  | @int _ n digits =>
    have text : dumps o (.int n) = .ok (if n < 0 then 45 :: digitChars n.natAbs
        else digitChars n.natAbs) := by
      rw [dumps, intRepr]
      exact if_neg (not_lt.2 digits)
    rw [textOf, text, Value.size]
    simp only
    split
    · rw [List.length_cons]
    · exact Nat.le_succ _
  | @float _ x q finite =>
    rw [textOf, dumps, floatRepr, finite, Value.size]
  | @str _ s chars =>
    rw [textOf, dumps, Value.size]
    exact quote_length s
  | @list d xs elems ih =>
    have texts : dumpsList o xs = .ok (xs.map (textOf o)) := by
      clear ih
      induction xs with
      | nil => rfl
      | cons x xs iht =>
        rw [dumpsList, (elems x List.mem_cons_self).text o,
          iht fun y m => elems y (List.mem_cons_of_mem _ m)]
        rfl
    have parts := intercalate_length (itemSep_length o) (xs.map (textOf o))
    have bound : ((xs.map (textOf o)).map fun t => t.length + 2).sum ≤ Value.sizeList xs := by
      rw [sizeList_eq, List.map_map]
      exact List.sum_le_sum fun x m => Nat.add_le_add_right (ih x m) 2
    rw [textOf, dumps, texts, Value.size]
    simp only [ok_bind, pure, Except.pure, List.length_cons, List.length_append, List.length_nil]
    omega
  | @dict d ms keys chars members ih =>
    have texts := dumpsDict_map fun e m => (members e m).text o
    have perm := order_perm o (ms.map fun e => (e.1, textOf o e.2))
    have parts := intercalate_length (itemSep_length o)
      ((o.order (ms.map fun e => (e.1, textOf o e.2))).map fun t => quote t.1 ++ o.keySep ++ t.2)
    have bound : (((o.order (ms.map fun e => (e.1, textOf o e.2))).map fun t => quote t.1 ++
      o.keySep ++ t.2).map fun t =>
        t.length + 2).sum ≤ Value.sizeDict ms := by
      rw [((perm.map _).map _).sum_eq, sizeDict_eq, List.map_map, List.map_map]
      refine List.sum_le_sum fun e m => ?_
      have key := quote_length e.1
      have sep := keySep_length o
      have value := ih e m
      simp only [Function.comp, List.length_append]
      omega
    rw [textOf, dumps, texts, Value.size]
    simp only [ok_bind, pure, Except.pure, List.length_cons, List.length_append, List.length_nil]
    omega

end DbLab.Py
