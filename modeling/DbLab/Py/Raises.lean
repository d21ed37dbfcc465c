import DbLab.Py.Encodings

/-!
# What may be raised

Programs that raise nothing but errors of a kind, and the kind the JSON reader keeps to:
`ValueError`, `RecursionError`, and what the hooks raise.
-/

namespace DbLab.Py

section Only
variable {ε α β : Type}

/-- Every error of `x` is of the kind `P`. -/
def Only (P : ε → Prop) (x : Except ε α) : Prop := ∀ e, x = .error e → P e

variable {P Q : ε → Prop}

/-- What returns raises nothing. -/
lemma Only.ok (a : α) : Only P (.ok a : Except ε α) := nofun

/-- A result raises nothing. -/
lemma Only.pure (a : α) : Only P (pure a : Except ε α) := nofun

/-- An error that is allowed. -/
lemma Only.error {e : ε} (h : P e) : Only P (.error e : Except ε α) := by
  intro e' eq
  cases eq
  exact h

/-- A thrown error that is allowed. -/
lemma Only.throw {e : ε} (h : P e) : Only P (throw e : Except ε α) := Only.error h

/-- One computation after the other. -/
lemma Only.bind {x : Except ε α} {f : α → Except ε β} (first : Only P x)
    (rest : ∀ a, x = .ok a → Only P (f a)) :
    Only P (x >>= f) := by
  cases x with
  | error e => exact Only.error (first e rfl)
  | ok a => exact rest a rfl

/-- Allowing more. -/
lemma Only.mono {x : Except ε α} (h : Only P x) (imp : ∀ e, P e → Q e) : Only Q x :=
  fun e eq => imp e (h e eq)

/-- A translated error. -/
lemma Only.mapError {δ : Type} {R : δ → Prop} {x : Except ε α} {f : ε → δ} (h : Only P x)
    (imp : ∀ e, P e → R (f e)) :
    Only R (x.mapError f) := by
  cases x with
  | error e => exact Only.error (imp e (h e rfl))
  | ok a => exact Only.ok a

/-- A computation for each element. -/
lemma Only.mapM {l : List α} {f : α → Except ε β} (h : ∀ a ∈ l, Only P (f a)) :
    Only P (l.mapM f) := by
  induction l with
  | nil => exact .ok _
  | cons a l ih =>
    rw [List.mapM_cons]
    refine (h a List.mem_cons_self).bind fun b _ => ?_
    exact (ih fun a m => h a (List.mem_cons_of_mem _ m)).bind fun bs _ => .ok _

end Only

/-! ### The reader -/

/-- `except (ValueError, UnicodeError, RecursionError)` -/
def Exn.isUnreadable (e : Exn) : Bool := e.isValueError || e = .recursionError

/-- A value error is caught where bytes are read. -/
lemma Exn.unreadable {e : Exn} (h : e.isValueError = true) : e.isUnreadable = true := by
  rw [isUnreadable, h, Bool.true_or]

/-- Encoding a character only raises value errors. -/
lemma encodeChar_only (c : Nat) : Only (fun e => e.isValueError = true) (encodeChar c) := by
  unfold encodeChar
  split_ifs
  · exact .ok _
  · exact .ok _
  · exact .error rfl
  · exact .ok _
  · exact .ok _
  · exact .error rfl

/-- Encoding a text only raises value errors. -/
lemma encode_only (s : Str) : Only (fun e => e.isValueError = true) (encode s) := by
  induction s with
  | nil => exact .ok _
  | cons c s ih => exact (encodeChar_only c).bind fun b _ => ih.bind fun r _ => .ok _

/-- A decoded character only raises value errors. -/
lemma decoded_only (sp : Bool) (low c : Nat) :
    Only (fun e => e.isValueError = true) (decoded sp low c) := by
  unfold decoded
  split
  · exact .ok _
  · exact .error rfl

/-- Decoding bytes only raises value errors. -/
lemma decode_only (sp : Bool) (b : Bytes) :
    Only (fun e => e.isValueError = true) (decode sp b) := by
  fun_induction decode sp b with
  | case1 => exact .ok _
  | case2 b r ascii ih => exact ih.bind fun s _ => .ok _
  | case5 | case8 | case11 =>
    rename_i ih
    exact (decoded_only _ _ _).bind fun c _ => ih.bind fun s _ => .ok _
  | _ => exact .error rfl

/-- Reading units of UTF-16 only raises value errors. -/
lemma units16_only (big : Bool) (b : Bytes) :
    Only (fun e => e.isValueError = true) (units16 big b) := by
  fun_induction units16 big b with
  | case1 => exact .ok _
  | case2 b0 b1 r ih => exact ih.bind fun us _ => .ok _
  | case3 => exact .error rfl

/-- Decoding UTF-32 only raises value errors. -/
lemma decode32_only (big : Bool) (b : Bytes) :
    Only (fun e => e.isValueError = true) (decode32 big b) := by
  fun_induction decode32 big b with
  | case1 => exact .ok _
  | case2 => exact .throw rfl
  | case3 b0 b1 b2 b3 r c small ih => exact ih.bind fun s _ => .ok _
  | case4 => exact .error rfl

/-- Finding the encoding only raises value errors. -/
lemma jsonText_only (b : Bytes) : Only (fun e => e.isValueError = true) (jsonText b) := by
  have pairs : ∀ big b, Only (fun e => e.isValueError = true) (decode16 big b) := fun big b =>
    (units16_only big b).bind fun us _ => .ok _
  rw [jsonText]
  cases detectEncoding b with
  | utf8 => exact decode_only true b
  | utf8Sig => exact decode_only true _
  | utf16 => exact pairs _ _
  | utf16be => exact pairs _ _
  | utf16le => exact pairs _ _
  | utf32 => exact decode32_only _ _
  | utf32be => exact decode32_only _ _
  | utf32le => exact decode32_only _ _

/-- Reading an integer only raises value errors. -/
lemma intOf_only (t : Str) : Only (fun e => e.isValueError = true) (intOf t) := by
  unfold intOf
  extract_lets ds
  split
  · exact .error rfl
  · exact .ok _

section Hooks
variable [Interpreter] {ε : Type} {P : ε → Prop}

/-- Hooks under which reading raises errors of the kind `P` only. -/
structure Hooks.Only (P : ε → Prop) (h : Hooks ε) : Prop where
  unreadable : ∀ e : Exn, e.isUnreadable = true → P (h.raise e)
  pairs : ∀ ms, Py.Only P (h.pairs ms)
  constant : ∀ w, Py.Only P (h.constant w)

variable {h : Hooks ε}

/-- A decode error is allowed. -/
lemma Hooks.Only.decodeError (only : h.Only P) {α : Type} :
    Py.Only P (.error (h.raise decodeError) : Except ε α) :=
  .error (only.unreadable _ rfl)

/-- Reading a number only raises value errors. -/
lemma scanNumber_only (s : Str) : Py.Only (fun e => e.isValueError = true) (scanNumber s) := by
  unfold scanNumber
  split
  · exact .error rfl
  · simp only
    split
    · exact (intOf_only _).bind fun n _ => .ok _
    · exact .ok _

/-- The elements of a list raise what is allowed. -/
lemma scanElems_only (only : h.Only P) {pv : Str → Except ε (Value × Str)}
    (inner : ∀ s, Py.Only P (pv s)) (n : Nat) (s : Str) :
    Py.Only P (scanElems h pv n s) := by
  induction n generalizing s with
  | zero => exact only.decodeError
  | succ n ih =>
    refine (inner s).bind fun (v, r) _ => ?_
    simp only
    split
    · exact only.decodeError
    · split_ifs
      · exact .ok _
      · exact (ih _).bind fun p _ => .ok _
      · exact only.decodeError

/-- The members of a dictionary raise what is allowed. -/
lemma scanMembers_only (only : h.Only P) {pv : Str → Except ε (Value × Str)}
    (inner : ∀ s, Py.Only P (pv s)) (n : Nat) (s : Str) :
    Py.Only P (scanMembers h pv n s) := by
  induction n generalizing s with
  | zero => exact only.decodeError
  | succ n ih =>
    rw [scanMembers]
    split
    · exact only.decodeError
    split
    · exact only.decodeError
    split
    · exact only.decodeError
    · refine (inner _).bind fun p _ => ?_
      obtain ⟨v, r⟩ := p
      simp only
      split
      · exact only.decodeError
      · split_ifs
        · exact .ok _
        · exact (ih _).bind fun p _ => .ok _
        · exact only.decodeError

/-- A value raises what is allowed, one level further in. -/
lemma scanOnce_step_only (only : h.Only P) {limit : Nat}
    (inner : ∀ l, limit = l + 1 → ∀ s, Py.Only P (scanOnce h l s))
    (s : Str) : Py.Only P (scanOnce h limit s) := by
  have deep : ∀ {α : Type}, Py.Only P (.error (h.raise .recursionError) : Except ε α) :=
    .error (only.unreadable _ rfl)
  rw [scanOnce.eq_def]
  cases s with
  | nil => exact only.decodeError
  | cons c r =>
    simp only
    split
    · split
      · exact .ok _
      · exact only.decodeError
    split
    · split
      · exact deep
      · split
        · exact .ok _
        · exact (scanElems_only only (inner _ rfl) _ _).bind fun p _ => .ok _
    split
    · split
      · exact deep
      · split
        · exact (only.pairs _).bind fun v _ => .ok _
        · exact (scanMembers_only only (inner _ rfl) _ _).bind fun p _ =>
            (only.pairs _).bind fun v _ => .ok _
    split
    · exact .ok _
    split
    · exact .ok _
    split
    · exact .ok _
    split
    · exact (only.constant _).bind fun v _ => .ok _
    split
    · exact (only.constant _).bind fun v _ => .ok _
    split
    · exact (only.constant _).bind fun v _ => .ok _
    · exact (scanNumber_only _).mapError fun _ value => only.unreadable _ (Exn.unreadable value)

/-- A value raises what is allowed, at every level. -/
lemma scanOnce_only (only : h.Only P) (limit : Nat) (s : Str) : Py.Only P (scanOnce h limit s) := by
  induction limit generalizing s with
  | zero => exact scanOnce_step_only only (fun l e => absurd e (Nat.succ_ne_zero l).symm) s
  | succ limit ih =>
    refine scanOnce_step_only only (fun l e => ?_) s
    cases e
    exact ih

/-- Reading raises what the hooks raise, or an error of unreadable text. -/
theorem loads_only (only : h.Only P) (s : Str) : Py.Only P (loads h s) := by
  unfold loads
  split
  · exact only.decodeError
  · refine (scanOnce_only only _ _).bind fun (v, r) _ => ?_
    simp only
    split
    · exact .ok _
    · exact only.decodeError

/-- Loading bytes raises what is allowed. -/
theorem loadsBytes_only (only : h.Only P) (b : Bytes) : Py.Only P (loadsBytes h b) :=
  ((jsonText_only b).mapError fun _ value => only.unreadable _ (Exn.unreadable value)).bind
    fun s _ => loads_only only s

end Hooks

end DbLab.Py
