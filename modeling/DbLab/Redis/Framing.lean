import DbLab.Py.Reference
import DbLab.Redis.Resp

/-!
# `read_reply` reads frames

Replies as a server writes them. Within the limits of the client, a reply is a frame of
`read_reply`: it is read back exactly, whatever follows, and any proper prefix of it raises.
-/

namespace DbLab.Redis
open DbLab.Py DbLab.Data Reader

/-- A reply on the wire. -/
inductive Wire where
  | simple (text : Bytes)
  | error (text : Bytes)
  | int (n : Int)
  | bulk (data : Bytes)
  | null
  | nullArray
  | array (items : List Wire)

/-- One line: a type byte, data and the line end. -/
def line (kind : UInt8) (data : Bytes) : Bytes := kind :: (data ++ crlf)

mutual

def Wire.serialize : Wire → Bytes
  | .simple t => line 43 t
  | .error t => line 45 t
  | .int n => line 58 (intBytes n)
  | .bulk d => line 36 (decimal d.length) ++ (d ++ crlf)
  | .null => line 36 (intBytes (-1))
  | .nullArray => line 42 (intBytes (-1))
  | .array items => line 42 (decimal items.length) ++ Wire.serializeAll items

def Wire.serializeAll : List Wire → Bytes
  | [] => []
  | w :: ws => w.serialize ++ Wire.serializeAll ws

end

mutual

/-- What a reply is for the caller of `read_reply`. -/
def Wire.reply : Wire → Reply
  | .simple t => .bytes t
  | .error t => .error (decodeReplace t)
  | .int n => .int n
  | .bulk d => .bytes d
  | .null | .nullArray => .none
  | .array items => .list (Wire.replies items)

def Wire.replies : List Wire → List Reply
  | [] => []
  | w :: ws => w.reply :: Wire.replies ws

end

/-- The bytes of several replies. -/
lemma Wire.serializeAll_eq (ws : List Wire) :
    Wire.serializeAll ws = (ws.map Wire.serialize).flatten := by
  induction ws with
  | nil => rfl
  | cons w ws ih => rw [Wire.serializeAll, ih]; rfl

/-- The values of several replies. -/
lemma Wire.replies_eq (ws : List Wire) : Wire.replies ws = ws.map Wire.reply := by
  induction ws with
  | nil => rfl
  | cons w ws ih => rw [Wire.replies, ih]; rfl

/-- A reply within the limits: arrays are nested at most `n` levels deep, lines and bulk strings are
short enough and arrays have few enough items, and an integer has few enough digits. -/
inductive Wire.Fits : Nat → Wire → Prop where
  | simple {n t} (plain : 10 ∉ t) (short : t.length + 3 ≤ 65536) : Fits n (.simple t)
  | error {n t} (plain : 10 ∉ t) (short : t.length + 3 ≤ 65536) : Fits n (.error t)
  | int {n v} (digits : (digitChars v.natAbs).length ≤ maxStrDigits) : Fits n (.int v)
  | bulk {n d} (size : d.length ≤ 128 * 1024 * 1024) : Fits n (.bulk d)
  | null {n} : Fits n .null
  | nullArray {n} : Fits n .nullArray
  | array {n items} (size : items.length ≤ 1000000) (fits : ∀ w ∈ items, Fits n w) : Fits (n + 1)
      (.array items)

/-! ### Lines -/

/-- A line is taken up to its end. -/
lemma takeLine_line {l : Bytes} {n : Nat} (plain : 10 ∉ l) (short : l.length < n) (r : Bytes) :
    takeLine n (l ++ 10 :: r) = (l ++ [10], r) := by
  induction l generalizing n with
  | nil =>
    cases n with
    | zero => cases short
    | succ n => rfl
  | cons b l ih =>
    cases n with
    | zero => cases short
    | succ n =>
      have other : b ≠ 10 := fun e => plain (e ▸ List.mem_cons_self)
      rw [List.cons_append, takeLine, if_neg other,
        ih (fun m => plain (List.mem_cons_of_mem _ m)) (by simpa using short)]
      rfl

/-- Without a newline, the line is the front of the stream. -/
lemma takeLine_plain {l : Bytes} {n : Nat} (plain : 10 ∉ l) : (takeLine n l).1 <+: l := by
  induction l generalizing n with
  | nil => cases n <;> exact List.nil_prefix
  | cons b l ih =>
    cases n with
    | zero => exact List.nil_prefix
    | succ n =>
      have other : b ≠ 10 := fun e => plain (e ▸ List.mem_cons_self)
      rw [takeLine, if_neg other]
      exact (List.prefix_cons_inj b).2 (ih fun m => plain (List.mem_cons_of_mem _ m))

/-- A line ends in CR LF. -/
lemma line_eq (kind : UInt8) (data : Bytes) : line kind data = kind :: (data ++ [13]) ++ [10] := by
  simp [line, crlf]

/-- A whole line is a frame of `header`. -/
lemma header_frames {kind : UInt8} {data : Bytes} (visible : kind ≠ 10) (plain : 10 ∉ data)
    (short : data.length + 3 ≤ 65536) : Frames header (line kind data) ([kind], data) := by
  have open_ : (10 : UInt8) ∉ kind :: (data ++ [13]) := by
    simp [plain, visible.symm]
  constructor
  · intro r
    have taken : readline 65537 (line kind data ++ r) = .ok (line kind data, r) := by
      rw [line_eq, List.append_assoc]
      exact congrArg Except.ok (takeLine_line open_ (by simp; omega) r)
    have ends : crlf.isSuffixOf (line kind data) = true :=
      List.isSuffixOf_iff_suffix.2 ⟨kind :: data, rfl⟩
    have long : ¬(65536 < (line kind data).length ∨ ¬crlf.isSuffixOf (line kind data)) := by
      rw [ends]
      simp [line, crlf]
      omega
    have middle : ((line kind data).take ((line kind data).length - 2)).drop 1 = data := by
      simp [line, crlf]
    rw [header, run_bind, taken]
    show splitLine (line kind data) r = .ok (([kind], data), r)
    rw [splitLine, if_neg nofun, if_neg long, middle]
    rfl
  · intro q le ne
    have short : q <+: kind :: (data ++ [13]) := by
      rw [line_eq] at le ne
      exact (List.prefix_concat_iff.1 le).resolve_left ne
    have quiet : 10 ∉ (takeLine 65537 q).1 := fun m =>
      open_ (short.subset ((takeLine_plain fun m => open_ (short.subset m)).subset m))
    rw [header, run_bind]
    show ∃ e, splitLine (takeLine 65537 q).1 (takeLine 65537 q).2 = .error e
    rw [splitLine]
    split
    · exact ⟨_, rfl⟩
    · refine ⟨.protocol "Invalid RESP line", ?_⟩
      rw [if_pos (.inr fun ends => quiet ((List.isSuffixOf_iff_suffix.1 ends).subset (by decide)))]
      rfl

/-- The body of a bulk string is a frame of `bulk`. -/
lemma bulk_frames (data : Bytes) : Frames (bulk data.length) (data ++ crlf) (.bytes data) := by
  constructor
  · intro r
    have front : read data.length (data ++ crlf ++ r) = .ok (data, crlf ++ r) := by
      rw [read, List.append_assoc, List.take_left, List.drop_left]
    rw [bulk, run_bind, front]
    show bulkEnd data.length data (crlf ++ r) = _
    rw [bulkEnd, if_neg (fun ne => ne rfl)]
    rfl
  · intro q le ne
    rw [bulk, run_bind]
    show ∃ e, bulkEnd data.length (q.take data.length) (q.drop data.length) = .error e
    rw [bulkEnd]
    rcases prefix_append_cases le with ⟨short, proper⟩ | ⟨q', rfl, le'⟩
    · have part : q.take data.length = q := List.take_of_length_le short.length_le
      have less : q.length ≠ data.length := fun same => proper (short.eq_of_length same)
      rw [part, if_pos less]
      exact ⟨_, rfl⟩
    · have cut : q'.take 2 ≠ crlf := by
        intro same
        have long : q'.length ≥ crlf.length := by
          rw [← same]
          exact List.length_take_le' _ _
        exact ne (congrArg (data ++ ·) (le'.eq_of_length_le long))
      rw [List.take_left, List.drop_left, if_neg fun ne => ne rfl]
      refine ⟨.protocol "Truncated bulk reply", ?_⟩
      show (if q'.take 2 ≠ crlf then throw _ else pure _ : Stream Reply) (q'.drop 2) = _
      rw [if_pos cut]
      rfl

/-- A number is read from its digits. -/
lemma number_ok {data : Bytes} {n : Int} (h : intOfBytes data = .ok n) :
    ∀ q, number data q = .ok (n, q) := by
  intro q
  rw [number, h]
  rfl

/-- A reply whose first line is followed by a frame of what `body` reads. -/
lemma line_frames {n : Nat} {kind : UInt8} {data rest : Bytes} {a : Reply} (visible : kind ≠ 10)
    (plain : 10 ∉ data)
    (short : data.length + 3 ≤ 65536) (follows : Frames (body (readReply n) [kind] data) rest a) :
    Frames (readReply (n + 1)) (line kind data ++ rest) a := by
  show Frames (header >>= fun x => body (readReply n) x.1 x.2) _ _
  exact (header_frames visible plain short).bind follows

/-- A reply that is no longer than its first line. -/
lemma short_frames {n : Nat} {kind : UInt8} {data : Bytes} {a : Reply} (visible : kind ≠ 10)
    (plain : 10 ∉ data)
    (short : data.length + 3 ≤ 65536) (follows : Frames (body (readReply n) [kind] data) [] a) :
    Frames (readReply (n + 1)) (line kind data) a := by
  have framed := line_frames visible plain short follows
  rwa [List.append_nil] at framed

/-- The text of a number fits a line. -/
lemma number_line {n : Int} (h : (digitChars n.natAbs).length ≤ maxStrDigits) :
    10 ∉ intBytes n ∧ (intBytes n).length + 3 ≤ 65536 := by
  have digit : (10 : UInt8) ∉ decimal n.natAbs := decimal_plain (by decide) _
  have length : (decimal n.natAbs).length = (digitChars n.natAbs).length := List.length_map _
  rw [maxStrDigits] at h
  rw [intBytes]
  split
  · simp [digit]
    omega
  · exact ⟨digit, by omega⟩

/-- A size is read back, and `sized` takes over. -/
lemma sized_frames {n : Nat} {kind : UInt8} {size : Int} {rest : Bytes} {a : Reply}
    (known : kind = 36 ∨ kind = 42)
    (small : size.natAbs ≤ 128 * 1024 * 1024)
    (follows : Frames (sized (readReply n) [kind] size) rest a) :
    Frames (readReply (n + 1)) (line kind (intBytes size) ++ rest) a := by
  have digits : (digitChars size.natAbs).length ≤ maxStrDigits :=
    (digitChars_length (k := 10) (by omega) (by decide)).trans (by decide)
  obtain ⟨plain, short⟩ := number_line digits
  have body_ : body (readReply n) [kind] (intBytes size) =
      (number (intBytes size) >>= fun size => sized (readReply n) [kind] size) := by
    rcases known with rfl | rfl <;> rfl
  refine line_frames (by rcases known with rfl | rfl <;> decide) plain short ?_
  rw [body_]
  exact .bind_ok (number_ok (intOfBytes_intBytes digits)) follows

/-- The digits of a count. -/
lemma intBytes_natCast (n : Nat) : intBytes n = decimal n := by
  rw [intBytes, if_neg (by omega), Int.natAbs_natCast]

/-- A null reply, of either type. -/
lemma null_frames {n : Nat} {kind : UInt8} (known : kind = 36 ∨ kind = 42) :
    Frames (readReply (n + 1)) (line kind (intBytes (-1))) .none := by
  have framed : Frames (readReply (n + 1)) (line kind (intBytes (-1)) ++ []) .none :=
    sized_frames known (by decide) (.pure Reply.none)
  rwa [List.append_nil] at framed

/-- A reply within the limits is a frame of `read_reply`. -/
theorem readReply_frames {n : Nat} {w : Wire} (h : w.Fits n) :
    Frames (readReply (n + 1)) w.serialize w.reply := by
  induction h with
  | simple plain short => exact short_frames (by decide) plain short (.of_ok fun _ => rfl)
  | error plain short => exact short_frames (by decide) plain short (.of_ok fun _ => rfl)
  | int digits =>
    obtain ⟨plain, short⟩ := number_line digits
    exact short_frames (by decide) plain short
      (.map Reply.int (.of_ok (number_ok (intOfBytes_intBytes digits))))
  | @bulk n d size =>
    rw [Wire.serialize, ← intBytes_natCast]
    refine sized_frames (.inl rfl) size ?_
    have reads : sized (readReply n) [36] d.length = bulk d.length := by
      rw [sized, if_neg (by omega), if_neg (by omega), if_pos rfl, if_neg (by omega),
        Int.toNat_natCast]
    rw [reads]
    exact bulk_frames d
  | null => exact null_frames (.inl rfl)
  | nullArray => exact null_frames (.inr rfl)
  | @array n items size fits ih =>
    rw [Wire.serialize, Wire.reply, Wire.serializeAll_eq, Wire.replies_eq, ← intBytes_natCast]
    refine sized_frames (.inr rfl) (by omega) ?_
    have reads : sized (readReply (n + 1)) [42] items.length = .list <$>
        times (readReply (n + 1)) items.length := by
      rw [sized, if_neg (by omega), if_neg (by omega), if_neg (by decide), if_neg (by omega),
        Int.toNat_natCast]
    have each : List.Forall₂ (Frames (readReply (n + 1))) (items.map Wire.serialize)
        (items.map Wire.reply) := by
      rw [List.forall₂_map_left_iff, List.forall₂_map_right_iff, List.forall₂_same]
      exact ih
    have framed := Frames.times each
    rw [List.length_map] at framed
    rw [reads]
    exact framed.map Reply.list

/-- Replies back to back are a frame of as many reads. -/
theorem replies_frames {n : Nat} {ws : List Wire} (h : ∀ w ∈ ws, w.Fits n) :
    Frames (times (readReply (n + 1)) ws.length) (ws.map Wire.serialize).flatten
      (ws.map Wire.reply) := by
  have each : List.Forall₂ (Frames (readReply (n + 1))) (ws.map Wire.serialize)
      (ws.map Wire.reply) := by
    rw [List.forall₂_map_left_iff, List.forall₂_map_right_iff, List.forall₂_same]
    exact fun w m => readReply_frames (h w m)
  have framed := Frames.times each
  rwa [List.length_map] at framed

/-- An array with more items than the client takes is refused behind its first line. -/
lemma readReply_wide {n size : Nat} (wide : 1000000 < size) (small : size ≤ 128 * 1024 * 1024)
    (r : Bytes) :
    readReply (n + 1) (line 42 (decimal size) ++ r) =
      .error (.protocol "Array exceeds lab limit") := by
  have digits : (digitChars (size : Int).natAbs).length ≤ maxStrDigits :=
    (digitChars_length (k := 10) (by omega) (by omega)).trans (by decide)
  obtain ⟨plain, short⟩ := number_line digits
  have head := (header_frames (show (42 : UInt8) ≠ 10 by decide) plain short).reads r
  have refused : sized (readReply n) [42] size = throw (.protocol "Array exceeds lab limit") := by
    rw [sized, if_neg (by omega), if_neg (by omega), if_neg (by decide), if_pos (by omega)]
  rw [← intBytes_natCast]
  show (header >>= fun x => body (readReply n) x.1 x.2) _ = _
  rw [run_bind, head]
  show (number (intBytes size) >>= fun size => sized (readReply n) [42] size) r = _
  rw [run_bind, number_ok (intOfBytes_intBytes digits)]
  show sized (readReply n) [42] size r = _
  rw [refused]
  rfl

/-! ### Commands are replies -/

/-- The items of a command on the wire. -/
def command (items : List Bytes) : Wire := .array (items.map .bulk)

/-- A part of a command is a bulk string. -/
lemma part_eq (item : Bytes) : part item = (Wire.bulk item).serialize := by
  simp [part, Wire.serialize, line]

/-- A command is an array of them. -/
lemma command_serialize (items : List Bytes) :
    (command items).serialize = 42 :: decimal items.length ++ crlf ++ (items.map part).flatten := by
  have parts : items.map part = (items.map Wire.bulk).map Wire.serialize := by
    rw [List.map_map]
    exact List.map_congr_left fun item _ => part_eq item
  rw [command, Wire.serialize, Wire.serializeAll_eq, List.length_map, parts]
  rfl

/-- A command reads as the list of its items. -/
lemma command_reply (items : List Bytes) : (command items).reply = .list (items.map .bytes) := by
  rw [command, Wire.reply, Wire.replies_eq, List.map_map]
  rfl

/-- A command within the limits for replies. -/
lemma command_fits {n : Nat} {items : List Bytes} (few : items.length ≤ 1000000)
    (small : ∀ item ∈ items, item.length ≤ 128 * 1024 * 1024) : (command items).Fits (n + 1) := by
  refine .array (by rwa [List.length_map]) fun w m => ?_
  obtain ⟨item, m', rfl⟩ := List.mem_map.1 m
  exact .bulk (small item m')

section Commands
variable [Interpreter]

/-- What `encode` returns is the command on the wire. -/
lemma encodeArgs_inv {args : List Arg} {items : List Bytes} {b : Bytes}
    (names : args.mapM Arg.item = .ok items)
    (h : encodeArgs args = .ok b) : b = (command items).serialize := by
  rw [encodeArgs] at h
  split at h
  · cases h
  · rw [names] at h
    cases h
    exact (command_serialize items).symm

/-- Bytes are their own items. -/
lemma items_of_bytes (items : List Bytes) : (items.map Arg.bytes).mapM Arg.item = .ok items := by
  induction items with
  | nil => rfl
  | cons item items ih =>
    rw [List.map_cons, List.mapM_cons, ih]
    rfl

/-- `encode` accepts a command of any number of arguments, `read_reply` does not. -/
lemma encodeArgs_wide {items : List Bytes} (wide : 1000000 < items.length)
    (small : items.length ≤ 128 * 1024 * 1024)
    (n : Nat) : ∃ b, encodeArgs (items.map Arg.bytes) = .ok b ∧
      readReply (n + 1) b = .error (.protocol "Array exceeds lab limit") := by
  have nonempty : items.map Arg.bytes ≠ [] := by
    intro none
    rw [List.map_eq_nil_iff.1 none] at wide
    cases wide
  refine ⟨42 :: decimal items.length ++ crlf ++ (items.map part).flatten, ?_,
    readReply_wide wide small _⟩
  rw [encodeArgs, if_neg nonempty, items_of_bytes]
  rfl

/-- Replies within the limits of the client round trip: read back to back they come out in order and
leave what follows them, and reads on less than all of them raise. A command within the limits reads
back as the list of the bytes of its arguments. -/
theorem framing_round_trip :
    (∀ ws : List Wire, (∀ w ∈ ws, w.Fits 32) →
      (∀ suffix, times (readReply 33) ws.length ((ws.map Wire.serialize).flatten ++ suffix) =
        .ok (ws.map Wire.reply, suffix)) ∧
      ∀ q, q <+: (ws.map Wire.serialize).flatten → q ≠ (ws.map Wire.serialize).flatten →
        ∃ e, times (readReply 33) ws.length q = .error e) ∧
    (∀ w : Wire, w.Fits 32 → ∀ q, q <+: w.serialize → q ≠ w.serialize →
      ∃ e, readReply 33 q = .error e) ∧
    (∀ args items b, args.mapM Arg.item = .ok items → encodeArgs args = .ok b →
      items.length ≤ 1000000 → (∀ item ∈ items, item.length ≤ 128 * 1024 * 1024) →
      ∀ suffix, readReply 33 (b ++ suffix) = .ok (.list (items.map .bytes), suffix)) := by
  refine ⟨?_, ?_, ?_⟩
  · intro ws fits
    have framed := replies_frames fits
    exact ⟨framed.reads, framed.stops⟩
  · intro w fits
    exact (readReply_frames fits).stops
  · intro args items b names encoded few small suffix
    rw [encodeArgs_inv names encoded, ← command_reply]
    exact (readReply_frames (command_fits few small)).reads suffix

end Commands

section Limits
attribute [local instance] reference

/-- An error inside an array, a null, and a bulk string with a line end in it. -/
theorem framing_round_trip_nested :
    times (readReply 33) 2
      (((Wire.array [.error [69], .null, .array [.bulk [13, 10]]]).serialize ++
        (Wire.int (-7)).serialize) ++ [43]) =
      .ok ([.list [.error (decodeReplace [69]), .none, .list [.bytes [13, 10]]],
        .int (-7)], [43]) := by
  have digits : (digitChars (-7 : Int).natAbs).length ≤ maxStrDigits := by decide
  have inner : ∀ w ∈ [Wire.bulk [13, 10]], w.Fits 30 := by
    intro w m
    cases List.mem_singleton.1 m
    exact .bulk (by decide)
  have outer : ∀ w ∈ [Wire.error [69], .null, .array [.bulk [13, 10]]], w.Fits 31 := by
    intro w m
    simp only [List.mem_cons, List.not_mem_nil, or_false] at m
    rcases m with rfl | rfl | rfl
    · exact .error (by decide) (by decide)
    · exact .null
    · exact .array (by decide) inner
  have fits : ∀ w ∈ [Wire.array [.error [69], .null, .array [.bulk [13, 10]]], .int (-7)],
      w.Fits 32 := by
    intro w m
    simp only [List.mem_cons, List.not_mem_nil, or_false] at m
    rcases m with rfl | rfl
    · exact .array (by decide) outer
    · exact .int digits
  have framed := (framing_round_trip.1 _ fits).1 [43]
  simpa [Wire.reply, Wire.replies] using framed

/-- `encode` accepts a command with one argument more than `read_reply` takes. -/
theorem wide_command_unread :
    ¬∀ (args : List Arg) (items : List Bytes) (b : Bytes), args.mapM Arg.item = .ok items →
      encodeArgs args = .ok b → readReply 33 b = .ok (.list (items.map .bytes), []) := by
  intro claimed
  have length : (List.replicate 1000001 ([] : Bytes)).length = 1000001 := List.length_replicate
  obtain ⟨b, encoded, refused⟩ := @encodeArgs_wide _ (List.replicate 1000001 [])
    (by rw [length]; omega) (by rw [length]; omega) 32
  cases (claimed _ _ b (items_of_bytes _) encoded).symm.trans refused

end Limits

end DbLab.Redis
