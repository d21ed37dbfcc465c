import DbLab.Ansible.Policy
import DbLab.Py.Float

/-!
# The words of a command

What a command does to the labs is read off its words, without regard to the policy. `Assembled` is
the shape of the argument lists the policy writes: its own words and switches, options with one
checked value each, and checked run identities.
-/

namespace DbLab.Ansible
open DbLab.Py

/-! ### Effects -/

def first (argv : List Str) (names : List String) : Bool := argv.head?.any (named names)

def mvpStateful : List Str → Bool
  | action :: rest =>
    named ["init", "up", "down", "smoke", "restart", "rebuild-search", "bind-target",
      "stop", "resume", "recreate", "experiment"] action ||
    named drillActions action && first rest ["run", "recover", "prepare", "cleanup"]
  | [] => false

def stateful : List Str → Bool
  | head :: rest =>
    if head = str "mvp" then mvpStateful rest
    else if head = str "k8s" then first rest ["init", "up", "down"]
    else named ["init", "up", "down", "restart", "reset", "benchmark"] head
  | [] => false

/-- The command carries `--yes` or its action changes a lab. -/
def changing (argv : List Str) : Bool := argv.contains (str "--yes") || stateful argv

/-- The scenarios of `run` without a fault. -/
def faultless (action : Str) : List String :=
  if action = str "simulate" then ["baseline", "duplicate-retry", "version-race"]
  else if action = str "verify" then ["core"]
  else []

def mvpFaulting : List Str → Bool
  | action :: rest =>
    named ["stop", "recreate"] action ||
    action = str "experiment" && !first rest ["normal"] ||
    named drillActions action && first rest ["run"] && !first rest.tail (faultless action)
  | [] => false

/-- The command disturbs a service of the MVP stack. -/
def faulting : List Str → Bool
  | head :: rest => head = str "mvp" && mvpFaulting rest
  | [] => false

/-- `reset` deletes the volumes of a lab. -/
def resetting (argv : List Str) : Bool := first argv ["reset"]

/-- `k8s down` uninstalls a release. -/
def uninstalling : List Str → Bool
  | head :: rest => head = str "k8s" && first rest ["down"]
  | [] => false

/-- `mvp messages cleanup` deletes the topics and the index of one drill. -/
def discarding : List Str → Bool
  | head :: action :: rest => head = str "mvp" && action = str "messages" && first rest ["cleanup"]
  | _ => false

/-! ### Words -/

def words : List String :=
  ["benchmark", "list", "preflight", "health", "reset", "lint", "template", "history",
    "values", "plan",
   "run", "recover", "prepare", "inspect", "cleanup", "report", "export", "compare", "es7",
   "es9", "normal", "bad-db-password", "fresh-search", "orders", "outbox", "counts", "ping"] ++
    (targets ++ (plainActions ++ (serviceActions ++ (drillActions ++ (simulations ++ (drills ++
      (messages ++ (suites ++ (services ++ workloads)))))))))

def switches : List String := ["--yes", "--json", "--keep"]

def valued : List String :=
  ["--seed", "--seconds", "--rate", "--workers", "--fault-at", "--fault-for", "--recovery-timeout",
   "--workload", "--clients", "--step-timeout", "--candidate-image", "--snapshot",
   "--batch", "--keys", "--payload", "-f"]

/-- The text would be read as a flag. -/
def Dash (t : Str) : Prop := t.head? = some 45

/-! ### No value is a flag -/

/-- A text has no dash in front if its first letter is none. -/
lemma dashless {c : Char} {w : List Char} (h : c.toNat ≠ 45) :
    (str (String.ofList (c :: w))).head? ≠ some 45 := by
  rw [str, String.toList_ofList]
  exact fun e => h (Option.some.inj e)

/-- No word of the policy begins with a dash. -/
lemma words_plain : ∀ w ∈ words, (str w).head? ≠ some 45 := by
  simp only [words, targets, plainActions, serviceActions, drillActions, simulations, drills,
    transactions, messages, suites, services, workloads, List.forall_mem_append,
    List.forall_mem_cons]
  repeat' apply And.intro
  all_goals first | exact dashless (by decide) | exact nofun

/-- A text with a slash in front does not begin with a dash. -/
lemma startsWith_slash {s : Str} (h : startsWith "/" s = true) : s.head? = some 47 := by
  obtain ⟨r, rfl⟩ := List.isPrefixOf_iff_prefix.1 h
  rfl

/-- A condition is required. -/
lemma require_ok {c : Bool} {code : String} {u : Unit} : require c code = .ok u ↔ c = true := by
  cases c <;> simp [require]

/-- A number that is not negative is written without a sign. -/
lemma intRepr_plain {n : Int} {t : Str} (nonneg : 0 ≤ n) (text : intRepr n = .ok t) :
    t.head? ≠ some 45 := by
  unfold intRepr at text
  dsimp only at text
  split at text
  · cases text
  · rw [if_neg (by omega)] at text
    cases text
    intro head
    have digit := digitChars_isDigit n.natAbs 45 (List.mem_of_mem_head? head)
    exact absurd digit (by decide)

/-- The id of a run does not begin with a dash. -/
lemma run_plain {kind : RunKind} {t : Str} (h : kind.re.fullmatch t = true) :
    t.head? ≠ some 45 := by
  have opens : kind.re.Opens (· ≠ 45) := by
    cases kind with
    | accept =>
      exact (Pattern.opens_lit (c := 'a') (w := ['c', 'c', 'e', 'p', 't', '-']) (by decide)).seq
    | msg => exact (Pattern.opens_lit (c := 'm') (w := ['s', 'g', '-']) (by decide)).seq
    | sim => exact (Pattern.opens_lit (c := 's') (w := ['i', 'm', '-']) (by decide)).seq
  obtain ⟨c, r, rfl, ne⟩ := opens.fullmatch h
  exact fun head => ne (Option.some.inj head)

/-- The name of an image does not begin with a dash. -/
lemma image_plain {t : Str} (h : imageRe.fullmatch t = true) : t.head? ≠ some 45 := by
  have docker : (Pattern.lit "docker.io/").Opens (· ≠ 45) :=
    Pattern.opens_lit (c := 'd') (w := ['o', 'c', 'k', 'e', 'r', '.', 'i', 'o', '/']) (by decide)
  have library : (Pattern.lit "library/").Opens (· ≠ 45) :=
    Pattern.opens_lit (c := 'l') (w := ['i', 'b', 'r', 'a', 'r', 'y', '/']) (by decide)
  have mariadb : (Pattern.lit "mariadb:").Opens (· ≠ 45) :=
    Pattern.opens_lit (c := 'm') (w := ['a', 'r', 'i', 'a', 'd', 'b', ':']) (by decide)
  have opens : imageRe.Opens (· ≠ 45) := (docker.leads.opt.seq library).leads.opt.seq mariadb.seq
  obtain ⟨c, r, rfl, ne⟩ := opens.fullmatch h
  exact fun head => ne (Option.some.inj head)

/-! ### Checked values -/

variable [Interpreter]

/-- A value of the caller behind a check of the policy. -/
inductive Validated : Str → Prop where
  | count {n : Int} {t : Str} : 0 ≤ n → intRepr n = .ok t → Validated t
  | rate {x : Interpreter.Float} {q : Rat} {t : Str} : Interpreter.view x = .finite q → fifth ≤ q →
      t = Interpreter.repr x → Validated t
  | run {kind : RunKind} {t : Str} : kind.re.fullmatch t = true → Validated t
  | image {t : Str} : imageRe.fullmatch t = true → Validated t
  | path {t : Str} : absolute (.str t) = .ok t → Validated t

/-- What may stand behind an option or as a positional argument. -/
def Argument (t : Str) : Prop := (∃ w ∈ words, t = str w) ∨ Validated t

inductive Piece : List Str → Prop where
  | switch {w : String} : w ∈ switches → Piece [str w]
  | option {w : String} {t : Str} : w ∈ valued → Argument t → Piece [str w, t]
  | argument {t : Str} : Argument t → Piece [t]

def Assembled (argv : List Str) : Prop :=
  ∃ ps : List (List Str), argv = ps.flatten ∧ ∀ p ∈ ps, Piece p

/-- An absolute path that was accepted is the text itself. -/
lemma absolute_ok {v : Value} {t : Str} (h : absolute v = .ok t) :
    v = .str t ∧ absolute (.str t) = .ok t ∧ t.head? = some 47 := by
  cases v with
  | str s =>
    have whole := h
    obtain ⟨_, starts, h⟩ := bind_ok.1 h
    obtain ⟨_, _, h⟩ := bind_ok.1 h
    cases h
    rw [require_ok, Bool.and_eq_true, Bool.and_eq_true] at starts
    exact ⟨rfl, whole, startsWith_slash starts.1.2⟩
  | null => cases h
  | bool b => cases h
  | int n => cases h
  | float x => cases h
  | list xs => cases h
  | dict ms => cases h

/-- No validated value begins with a dash. -/
lemma Validated.plain [FloatLaws] {t : Str} (h : Validated t) : ¬ Dash t := by
  cases h with
  | count nonneg text => exact intRepr_plain nonneg text
  | rate view range text =>
    subst text
    exact FloatLaws.repr_unsigned _ _ view (lt_of_lt_of_le (by norm_num [fifth]) range)
  | run re => exact run_plain re
  | image re => exact image_plain re
  | path ok =>
    intro dash
    rw [Dash, (absolute_ok ok).2.2] at dash
    cases dash

/-- No argument begins with a dash. -/
lemma Argument.plain [FloatLaws] {t : Str} (h : Argument t) : ¬ Dash t := by
  rcases h with ⟨w, mem, rfl⟩ | valid
  · exact words_plain w mem
  · exact valid.plain

/-! ### Assembling -/

/-- A word of the policy is an argument. -/
lemma Argument.word {w : String} (h : w ∈ words) : Argument (str w) := .inl ⟨w, h, rfl⟩

/-- No words are assembled from nothing. -/
lemma Assembled.nil : Assembled [] := ⟨[], rfl, nofun⟩

/-- One piece is assembled. -/
lemma Piece.assembled {p : List Str} (h : Piece p) : Assembled p :=
  ⟨[p], (List.append_nil p).symm, fun _ m => List.mem_singleton.1 m ▸ h⟩

/-- Pieces behind pieces. -/
lemma Assembled.append {a b : List Str} (ha : Assembled a) (hb : Assembled b) :
    Assembled (a ++ b) := by
  obtain ⟨ps, rfl, hp⟩ := ha
  obtain ⟨qs, rfl, hq⟩ := hb
  refine ⟨ps ++ qs, List.flatten_append.symm, fun p m => ?_⟩
  exact (List.mem_append.1 m).elim (hp p) (hq p)

/-- Pieces one after the other. -/
lemma Assembled.flatten {ls : List (List Str)} (h : ∀ l ∈ ls, Assembled l) :
    Assembled ls.flatten := by
  induction ls with
  | nil => exact .nil
  | cons l ls ih =>
    exact (h l List.mem_cons_self).append (ih fun l' m => h l' (List.mem_cons_of_mem _ m))

/-- Arguments one after the other. -/
lemma Assembled.arguments {ts : List Str} (h : ∀ t ∈ ts, Argument t) : Assembled ts := by
  induction ts with
  | nil => exact .nil
  | cons t ts ih =>
    exact (Piece.argument (h t List.mem_cons_self)).assembled.append
      (ih fun t' m => h t' (List.mem_cons_of_mem _ m))

/-- A switch that is given under a condition. -/
lemma Assembled.whenever {w : String} (mem : w ∈ switches) (c : Bool) :
    Assembled (whenever c w) := by
  cases c with
  | false => exact .nil
  | true => exact (Piece.switch mem).assembled

/-- Every token is a word of the policy, a flag of the policy, or a checked value that is no
flag. -/
lemma Assembled.tokens [FloatLaws] {argv : List Str} (h : Assembled argv) :
    ∀ t ∈ argv, (∃ w ∈ words ++ (switches ++ valued), t = str w) ∨ (Validated t ∧ ¬ Dash t) := by
  obtain ⟨ps, rfl, pieces⟩ := h
  have argument : ∀ t, Argument t → (∃ w ∈ words ++ (switches ++ valued), t = str w) ∨
      (Validated t ∧ ¬ Dash t) := by
    rintro t (⟨w, mem, rfl⟩ | valid)
    · exact .inl ⟨w, List.mem_append_left _ mem, rfl⟩
    · exact .inr ⟨valid, valid.plain⟩
  intro t m
  obtain ⟨p, mp, mt⟩ := List.mem_flatten.1 m
  cases pieces p mp with
  | switch mem =>
    rw [List.mem_singleton.1 mt]
    exact .inl ⟨_, List.mem_append_right _ (List.mem_append_left _ mem), rfl⟩
  | option mem arg =>
    rcases List.mem_cons.1 mt with rfl | mt
    · exact .inl ⟨_, List.mem_append_right _ (List.mem_append_right _ mem), rfl⟩
    · rw [List.mem_singleton.1 mt]
      exact argument _ arg
  | argument arg =>
    rw [List.mem_singleton.1 mt]
    exact argument _ arg

end DbLab.Ansible
