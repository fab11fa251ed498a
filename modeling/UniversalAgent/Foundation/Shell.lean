import Mathlib

/-!
# Foundation — Shell

How a POSIX shell reads a line: token recognition and quoting, up to the first expansion. A line that
expands a tilde, a parameter, a command or an arithmetic expression is not read further, and of an
operator only the characters matter. Pathname expansion is a parameter: the names that match.

Words put side by side with blanks between them are read back as they were exactly if they are plain,
that is, if every character of them stands for itself.
-/

namespace UniversalAgent.Foundation.Shell

/-! ## Characters -/

def isBlank (c : Char) : Bool := c = ' ' || c = '\t'

def isOperator (c : Char) : Bool :=
  c = '|' || c = '&' || c = ';' || c = '<' || c = '>' || c = '(' || c = ')'

def isMeta (c : Char) : Bool := isBlank c || c = '\n' || isOperator c

/-- What follows a `$` that begins an expansion: a name, a special parameter or a bracket. -/
def beginsExpansion : List Char → Bool
  | [] => false
  | c :: _ => c.isAlphanum || ['_', '@', '*', '#', '?', '-', '$', '!', '{', '('].contains c

structure WordChar where
  char : Char
  quoted : Bool
deriving DecidableEq

abbrev Word := List WordChar

def text (w : Word) : String := String.ofList (w.map WordChar.char)

def literal (cs : List Char) : Word := cs.map fun c => ⟨c, false⟩

theorem text_literal (s : String) : text (literal s.toList) = s := by
  unfold text literal
  rw [List.map_map]
  exact (congrArg String.ofList (List.map_id _)).trans (String.ofList_toList)

/-! ## Tokens -/

inductive Token where
  | word (w : Word)
  | operator (c : Char)
  | newline
deriving DecidableEq

inductive Stop where
  | expansion | unterminated | nul
deriving DecidableEq

inductive Quoting where
  | unquoted | escaped | single | double | doubleEscaped | comment
deriving DecidableEq

def ends : Option Word → List Token
  | none => []
  | some w => [.word w]

def push (w : Option Word) (c : Char) (quoted : Bool) : Option Word :=
  some (w.getD [] ++ [⟨c, quoted⟩])

def lex : Quoting → Option Word → List Char → Except Stop (List Token)
  | .unquoted, w, [] => .ok (ends w)
  | .escaped, w, [] => .ok (ends (push w '\\' false))
  | .comment, w, [] => .ok (ends w)
  | _, _, [] => .error .unterminated
  | q, w, c :: cs =>
    if c = '\x00' then .error .nul
    else
      match q with
      | .unquoted =>
        if c = '\\' then lex .escaped w cs
        else if c = '\'' then lex .single (some (w.getD [])) cs
        else if c = '"' then lex .double (some (w.getD [])) cs
        else if c = '`' ∨ c = '$' ∧ beginsExpansion cs = true then .error .expansion
        else if isBlank c then (lex .unquoted none cs).map (ends w ++ ·)
        else if c = '\n' then (lex .unquoted none cs).map (ends w ++ .newline :: ·)
        else if isOperator c then (lex .unquoted none cs).map (ends w ++ .operator c :: ·)
        else if w = none ∧ c = '~' then .error .expansion
        else if w = none ∧ c = '#' then lex .comment w cs
        else lex .unquoted (push w c false) cs
      | .escaped =>
        if c = '\n' then lex .unquoted w cs else lex .unquoted (push w c true) cs
      | .single =>
        if c = '\'' then lex .unquoted w cs else lex .single (push w c true) cs
      | .double =>
        if c = '"' then lex .unquoted w cs
        else if c = '\\' then lex .doubleEscaped w cs
        else if c = '`' ∨ c = '$' ∧ beginsExpansion cs = true then .error .expansion
        else lex .double (push w c true) cs
      | .doubleEscaped =>
        if c = '\n' then lex .double w cs
        else if c = '$' ∨ c = '`' ∨ c = '"' ∨ c = '\\' then lex .double (push w c true) cs
        else lex .double (push (push w '\\' true) c true) cs
      | .comment =>
        if c = '\n' then (lex .unquoted none cs).map (ends w ++ .newline :: ·)
        else lex .comment w cs

def tokens (line : String) : Except Stop (List Token) := lex .unquoted none line.toList

/-- The words of a line that is one simple command without redirections. -/
def simpleCommand : List Token → Option (List Word)
  | [] => some []
  | .word w :: ts => (simpleCommand ts).map (w :: ·)
  | _ => none

/-! ## Arguments -/

def isGlob (c : WordChar) : Bool :=
  !c.quoted && (c.char = '*' || c.char = '?' || c.char = '[')

/-- Pathname expansion, given the names that match, and quote removal. -/
def fields (paths : Word → List String) (w : Word) : List String :=
  if w.any isGlob ∧ paths w ≠ [] then paths w else [text w]

/-- The name and the arguments with which a line runs a program, where it is a single simple command
without redirections or expansions other than of pathnames. -/
def argv (paths : Word → List String) (line : String) : Option (List String) :=
  match tokens line with
  | .error _ => none
  | .ok ts => (simpleCommand ts).map fun ws => ws.flatMap (fields paths)

/-! ## Plain words -/

/-- The character stands for itself where it is followed by `rest`. -/
def stands (c : Char) (rest : List Char) : Bool :=
  if c = '\\' then rest.isEmpty
  else if c = '$' then !beginsExpansion rest
  else !(c = '\x00' || c = '\'' || c = '"' || c = '`' || isMeta c)

def standsAll : List Char → Bool
  | [] => true
  | c :: cs => stands c cs && standsAll cs

/-- A word that is read as it is: it is not empty, it does not begin with `~` or `#`, and every
character stands for itself. -/
def plain (s : String) : Bool :=
  match s.toList with
  | [] => false
  | c :: cs => c ≠ '~' && c ≠ '#' && standsAll (c :: cs)

def noPattern (s : String) : Bool :=
  s.toList.all fun c => c ≠ '*' && c ≠ '?' && c ≠ '['

/-! ## What is lost -/

def size : List Token → Nat
  | [] => 0
  | .word w :: ts => w.length + size ts
  | _ :: ts => size ts

theorem size_append (ts us : List Token) : size (ts ++ us) = size ts + size us := by
  induction ts with
  | nil => exact (Nat.zero_add _).symm
  | cons t ts ih =>
    cases t with
    | word w => simp only [List.cons_append, size, ih, Nat.add_assoc]
    | operator c => exact ih
    | newline => exact ih

@[simp] theorem size_ends (w : Option Word) : size (ends w) = (w.getD []).length := by
  cases w <;> rfl

@[simp] theorem length_push (w : Option Word) (c : Char) (quoted : Bool) :
    ((push w c quoted).getD []).length = (w.getD []).length + 1 := by
  simp [push]

/-- A backslash that has been read may still come to be a character of a word. -/
def pending : Quoting → Nat
  | .escaped => 1
  | .doubleEscaped => 1
  | _ => 0

theorem map_eq_ok {α β : Type} {f : α → β} {x : Except Stop α} {b : β} (h : x.map f = .ok b) :
    ∃ a, x = .ok a ∧ f a = b := by
  cases x with
  | error e => cases h
  | ok a =>
    cases h
    exact ⟨a, rfl, rfl⟩

variable {ts : List Token} {c : Char} {cs : List Char} {s : String} {ws : List String}

theorem size_lex_le (q : Quoting) (w : Option Word) (cs : List Char)
    (h : lex q w cs = .ok ts) : size ts ≤ (w.getD []).length + cs.length + pending q := by
  fun_induction lex q w cs generalizing ts
  all_goals first
    | cases h; done
    | -- the line is over
      cases h
      simp [pending]
    | -- a token has ended
      rename_i ih
      obtain ⟨us, hus, rfl⟩ := map_eq_ok h
      have hle := ih hus
      simp only [pending, size_append, size_ends, size, List.length_cons, Option.getD_none,
        List.length_nil] at hle ⊢
      omega
    | -- a character is read, and kept or not
      rename_i ih
      have hle := ih h
      simp only [pending, length_push, List.length_cons, Option.getD_some] at hle ⊢
      omega

/-! ## Plain words are read as they are -/

/-- What it means for a character other than a backslash to stand for itself, branch by branch. -/
theorem stands_iff (cs : List Char) (hne : c ≠ '\\') :
    stands c cs = true ↔ c ≠ '\x00' ∧ c ≠ '\'' ∧ c ≠ '"' ∧
      ¬ (c = '`' ∨ c = '$' ∧ beginsExpansion cs = true) ∧
        isBlank c ≠ true ∧ c ≠ '\n' ∧ isOperator c ≠ true := by
  unfold stands
  rw [if_neg hne]
  by_cases hdollar : c = '$'
  · subst hdollar
    have hplain : isBlank '$' = false ∧ isOperator '$' = false := by decide
    simp [hplain]
  · simp [hdollar, isMeta, and_assoc]

/-- A character that may stand for itself where it is, also as the first of a word. -/
def Literal (w : Option Word) (c : Char) (cs : List Char) : Prop :=
  stands c cs = true ∧ (w = none → c ≠ '~' ∧ c ≠ '#')

theorem lex_literal {w : Option Word} (h : Literal w c cs)
    (hne : c ≠ '\\') : lex .unquoted w (c :: cs) = lex .unquoted (push w c false) cs := by
  obtain ⟨hnul, hsingle, hdouble, hexpansion, hblank, hline, hoperator⟩ :=
    (stands_iff cs hne).mp h.1
  have htilde : ¬ (w = none ∧ c = '~') := fun ⟨hw, hc⟩ => (h.2 hw).1 hc
  have hcomment : ¬ (w = none ∧ c = '#') := fun ⟨hw, hc⟩ => (h.2 hw).2 hc
  rw [lex, if_neg hnul, if_neg hne, if_neg hsingle, if_neg hdouble, if_neg hexpansion,
    if_neg hblank, if_neg hline, if_neg hoperator, if_neg htilde, if_neg hcomment]

/-- Of a character that does not stand for itself nothing is left in a word. -/
theorem size_lt {w : Option Word}
    (hnot : ¬ Literal w c cs) (h : lex .unquoted w (c :: cs) = .ok ts) :
    size ts < (w.getD []).length + (c :: cs).length := by
  by_cases hback : c = '\\'
  · subst hback
    cases cs with
    | nil => exact absurd ⟨rfl, fun _ => by decide⟩ hnot
    | cons c cs =>
      rw [lex, if_neg (by decide), if_pos rfl, lex] at h
      split_ifs at h
      · have hle := size_lex_le _ _ _ h
        simp only [pending, List.length_cons] at hle ⊢
        omega
      · have hle := size_lex_le _ _ _ h
        simp only [pending, length_push, List.length_cons] at hle ⊢
        omega
  · rw [lex] at h
    split_ifs at h with hnul hsingle hdouble hexpansion hblank hline hoperator htilde hcomment
    · have hle := size_lex_le _ _ _ h
      simp only [pending, List.length_cons, Option.getD_some] at hle ⊢
      omega
    · have hle := size_lex_le _ _ _ h
      simp only [pending, List.length_cons, Option.getD_some] at hle ⊢
      omega
    · obtain ⟨us, hus, rfl⟩ := map_eq_ok h
      have hle := size_lex_le _ _ _ hus
      simp only [pending, size_append, size_ends, List.length_cons, Option.getD_none,
        List.length_nil] at hle ⊢
      omega
    · obtain ⟨us, hus, rfl⟩ := map_eq_ok h
      have hle := size_lex_le _ _ _ hus
      simp only [pending, size_append, size_ends, size, List.length_cons, Option.getD_none,
        List.length_nil] at hle ⊢
      omega
    · obtain ⟨us, hus, rfl⟩ := map_eq_ok h
      have hle := size_lex_le _ _ _ hus
      simp only [pending, size_append, size_ends, size, List.length_cons, Option.getD_none,
        List.length_nil] at hle ⊢
      omega
    · have hle := size_lex_le _ _ _ h
      simp only [pending, List.length_cons] at hle ⊢
      omega
    · refine absurd ⟨(stands_iff cs hback).mpr ⟨hnul, hsingle, hdouble, hexpansion, hblank, hline,
        hoperator⟩, fun hw => ⟨fun hc => htilde ⟨hw, hc⟩, fun hc => hcomment ⟨hw, hc⟩⟩⟩ hnot

theorem push_some (w : Word) (c : Char) (quoted : Bool) :
    push (some w) c quoted = some (w ++ [⟨c, quoted⟩]) := rfl

/-- Characters that stand for themselves become characters of the word. -/
theorem lex_standsAll (w : Word) (h : standsAll cs = true) :
    lex .unquoted (some w) cs = .ok [.word (w ++ literal cs)] := by
  induction cs generalizing w with
  | nil => simp [lex, ends, literal]
  | cons c cs ih =>
    obtain ⟨hc, hcs⟩ := Bool.and_eq_true_iff.mp h
    by_cases hback : c = '\\'
    · subst hback
      obtain rfl : cs = [] := by simpa [stands] using hc
      rfl
    · rw [lex_literal ⟨hc, by simp⟩ hback, push_some, ih _ hcs, List.append_assoc]
      rfl

/-- Where no character of the word is lost, they all stand for themselves. -/
theorem standsAll_of_size (w : Word)
    (h : lex .unquoted (some w) cs = .ok ts) (hsize : w.length + cs.length ≤ size ts) :
    standsAll cs = true := by
  induction cs generalizing w with
  | nil => rfl
  | cons c cs ih =>
    have hliteral : Literal (some w) c cs := by
      by_contra hnot
      have hlt := size_lt hnot h
      simp only [Option.getD_some] at hlt
      omega
    by_cases hback : c = '\\'
    · subst hback
      obtain rfl : cs = [] := by simpa [stands] using hliteral.1
      rfl
    · rw [lex_literal hliteral hback, push_some] at h
      have hkept : (w ++ [(⟨c, false⟩ : WordChar)]).length + cs.length ≤ size ts := by
        simp only [List.length_append, List.length_cons, List.length_nil] at hsize ⊢
        omega
      simp only [standsAll, hliteral.1, ih _ h hkept, Bool.and_self]

theorem plain_cons (hs : s.toList = c :: cs) : plain s = true ↔ Literal none c cs ∧ standsAll cs = true := by
  unfold plain Literal
  rw [hs]
  simp only [standsAll, Bool.and_eq_true, decide_eq_true_eq, true_imp_iff]
  tauto

theorem lex_plain (h : plain s = true) : lex .unquoted none s.toList = .ok [.word (literal s.toList)] := by
  cases hs : s.toList with
  | nil => simp [plain, hs] at h
  | cons c cs =>
    obtain ⟨hliteral, hcs⟩ := (plain_cons hs).mp h
    by_cases hback : c = '\\'
    · subst hback
      obtain rfl : cs = [] := by simpa [stands] using hliteral.1
      rfl
    · rw [lex_literal hliteral hback]
      exact lex_standsAll [⟨c, false⟩] hcs

theorem plain_of_size (hne : s ≠ "")
    (h : lex .unquoted none s.toList = .ok ts) (hsize : s.toList.length ≤ size ts) :
    plain s = true := by
  cases hs : s.toList with
  | nil => exact absurd (String.toList_inj.mp hs) hne
  | cons c cs =>
    rw [hs] at h hsize
    rw [plain_cons hs]
    have hliteral : Literal none c cs := by
      by_contra hnot
      have hlt := size_lt hnot h
      simp only [Option.getD_none, List.length_nil] at hlt
      omega
    refine ⟨hliteral, ?_⟩
    by_cases hback : c = '\\'
    · subst hback
      obtain rfl : cs = [] := by simpa [stands] using hliteral.1
      rfl
    · rw [lex_literal hliteral hback] at h
      exact standsAll_of_size [⟨c, false⟩] h (by
        simp only [List.length_cons, List.length_nil] at hsize ⊢
        omega)

/-! ## Words side by side -/

theorem stands_blank (h : stands c cs = true) (hne : c ≠ '\\')
    (rest : List Char) : stands c (cs ++ ' ' :: rest) = true := by
  unfold stands at h ⊢
  rw [if_neg hne] at h ⊢
  by_cases hdollar : c = '$'
  · rw [if_pos hdollar] at h ⊢
    cases cs with
    | nil => rfl
    | cons d cs => exact h
  · rw [if_neg hdollar] at h ⊢
    exact h

theorem lex_standsAll_blank (w : Word) (h : standsAll cs = true)
    (hback : '\\' ∉ cs) (rest : List Char) :
    lex .unquoted (some w) (cs ++ ' ' :: rest)
      = (lex .unquoted none rest).map (.word (w ++ literal cs) :: ·) := by
  induction cs generalizing w with
  | nil => simp [lex, isBlank, ends, literal]
  | cons c cs ih =>
    obtain ⟨hc, hcs⟩ := Bool.and_eq_true_iff.mp h
    rw [List.mem_cons, not_or] at hback
    have hne : c ≠ '\\' := fun heq => hback.1 heq.symm
    rw [List.cons_append, lex_literal ⟨stands_blank hc hne rest, by simp⟩ hne, push_some,
      ih _ hcs hback.2, List.append_assoc]
    rfl

/-- A plain word without backslashes, before a blank. -/
theorem lex_plain_blank (h : plain s = true) (hback : '\\' ∉ s.toList)
    (rest : List Char) :
    lex .unquoted none (s.toList ++ ' ' :: rest)
      = (lex .unquoted none rest).map (.word (literal s.toList) :: ·) := by
  cases hs : s.toList with
  | nil => simp [plain, hs] at h
  | cons c cs =>
    obtain ⟨⟨hc, hfirst⟩, hcs⟩ := (plain_cons hs).mp h
    rw [hs, List.mem_cons, not_or] at hback
    have hne : c ≠ '\\' := fun heq => hback.1 heq.symm
    rw [List.cons_append, lex_literal ⟨stands_blank hc hne rest, hfirst⟩ hne]
    exact lex_standsAll_blank [⟨c, false⟩] hcs hback.2 rest

def joined (ws : List String) (last : String) : String :=
  ws.foldr (fun w line => w ++ " " ++ line) last

def Safe (w : String) : Prop := plain w = true ∧ '\\' ∉ w.toList ∧ noPattern w = true

theorem tokens_joined (hws : ∀ w ∈ ws, Safe w) (last : String) :
    tokens (joined ws last)
      = (tokens last).map (ws.map (fun w => .word (literal w.toList)) ++ ·) := by
  unfold tokens
  induction ws with
  | nil =>
    show lex .unquoted none last.toList = _
    cases lex .unquoted none last.toList <;> rfl
  | cons w ws ih =>
    obtain ⟨hplain, hback, -⟩ := hws w List.mem_cons_self
    have hline : (joined (w :: ws) last).toList = w.toList ++ ' ' :: (joined ws last).toList := by
      simp [joined, String.toList_append]
    rw [hline, lex_plain_blank hplain hback, ih fun w' hw' => hws w' (List.mem_cons_of_mem _ hw')]
    cases lex .unquoted none last.toList <;> rfl

theorem simpleCommand_words (ws : List Word) (ts : List Token) :
    simpleCommand (ws.map .word ++ ts) = (simpleCommand ts).map (ws ++ ·) := by
  induction ws with
  | nil => cases h : simpleCommand ts <;> simp [h]
  | cons w ws ih =>
    rw [List.map_cons, List.cons_append, simpleCommand, ih, Option.map_map]
    rfl

/-- The size of a simple command is that of its words. -/
theorem size_simpleCommand {ws : List Word} (h : simpleCommand ts = some ws) :
    size ts = (ws.map List.length).sum := by
  induction ts generalizing ws with
  | nil =>
    cases h
    rfl
  | cons t ts ih =>
    cases t with
    | operator c => cases h
    | newline => cases h
    | word w =>
      rw [simpleCommand, Option.map_eq_some_iff] at h
      obtain ⟨vs, hvs, rfl⟩ := h
      rw [size, ih hvs, List.map_cons, List.sum_cons]

theorem any_isGlob_literal (s : String) : (literal s.toList).any isGlob = false ↔ noPattern s = true := by
  unfold literal noPattern
  rw [List.any_map, Bool.eq_false_iff, ne_eq, List.any_eq_true, List.all_eq_true]
  simp [isGlob, not_or, and_assoc]

theorem fields_literal (paths : Word → List String) (h : noPattern s = true) :
    fields paths (literal s.toList) = [s] := by
  unfold fields
  rw [if_neg fun hglob => ?_, text_literal]
  rw [(any_isGlob_literal s).mpr h] at hglob
  cases hglob.1

theorem flatMap_fields_safe (paths : Word → List String)
    (hws : ∀ w ∈ ws, Safe w) :
    (ws.map fun w => literal w.toList).flatMap (fields paths) = ws := by
  induction ws with
  | nil => rfl
  | cons w ws ih =>
    rw [List.map_cons, List.flatMap_cons, fields_literal paths (hws w List.mem_cons_self).2.2,
      ih fun w' hw' => hws w' (List.mem_cons_of_mem _ hw')]
    rfl

/-- The arguments of joined words are the words and the arguments of the last. -/
theorem argv_joined (paths : Word → List String) (hws : ∀ w ∈ ws, Safe w)
    (last : String) : argv paths (joined ws last) = (argv paths last).map (ws ++ ·) := by
  unfold argv
  rw [tokens_joined hws]
  cases tokens last with
  | error e => rfl
  | ok ts =>
    have hmap : (ws.map fun w => Token.word (literal w.toList))
        = (ws.map fun w => literal w.toList).map .word := by rw [List.map_map]; rfl
    simp only [Except.map, hmap, simpleCommand_words, Option.map_map]
    refine congrArg (Option.map · (simpleCommand ts)) (funext fun vs => ?_)
    simp only [Function.comp_apply, List.flatMap_append, flatMap_fields_safe paths hws]

theorem argv_no_paths {s a : String} (h : argv (fun _ => []) s = some [a]) :
    ∃ w ts, tokens s = .ok ts ∧ simpleCommand ts = some [w] ∧ text w = a := by
  unfold argv at h
  cases hs : tokens s with
  | error e => simp [hs] at h
  | ok ts =>
    simp only [hs, Option.map_eq_some_iff] at h
    obtain ⟨vs, hcommand, hfields⟩ := h
    have htext : fields (fun _ => []) = fun w => [text w] := funext fun w => by simp [fields]
    have hmap : vs.map text = [a] := by
      rw [← hfields, htext]
      exact List.map_eq_flatMap
    obtain ⟨w, rfl, hw⟩ := List.map_eq_singleton_iff.mp hmap
    exact ⟨w, ts, rfl, hcommand, hw⟩

/-- A word is its own argument, whatever names there are, exactly if it is plain and no pattern. -/
theorem argv_iff (hne : s ≠ "") :
    (∀ paths, argv paths s = some [s]) ↔ plain s = true ∧ noPattern s = true := by
  constructor
  · intro h
    have hplain : plain s = true := by
      obtain ⟨w, ts, hs, hcommand, hw⟩ := argv_no_paths (h fun _ => [])
      refine plain_of_size hne hs ?_
      have hlength : s.toList.length = w.length := by
        rw [← hw]
        simp [text]
      rw [size_simpleCommand hcommand, hlength]
      simp
    refine ⟨hplain, ?_⟩
    by_contra hpattern
    have hglob : (literal s.toList).any isGlob = true := by
      rw [← Bool.not_eq_false, any_isGlob_literal]
      exact hpattern
    have htwo := h fun _ => [s, s]
    unfold argv tokens at htwo
    rw [lex_plain hplain] at htwo
    simp [simpleCommand, fields, hglob] at htwo
  · rintro ⟨hplain, hpattern⟩ paths
    unfold argv tokens
    rw [lex_plain hplain]
    have hcommand : simpleCommand [.word (literal s.toList)] = some [literal s.toList] := rfl
    simp only [hcommand, Option.map_some, List.flatMap_singleton, fields_literal paths hpattern]

/-- **Joining is undone by reading** exactly for a last word that is plain and no pattern. -/
theorem argv_joined_iff (hws : ∀ w ∈ ws, Safe w) {last : String}
    (hne : last ≠ "") :
    (∀ paths, argv paths (joined ws last) = some (ws ++ [last])) ↔
      plain last = true ∧ noPattern last = true := by
  rw [← argv_iff hne]
  refine forall_congr' fun paths => ?_
  rw [argv_joined paths hws, Option.map_eq_some_iff]
  constructor
  · rintro ⟨args, hargs, heq⟩
    rw [hargs, List.append_cancel_left heq]
  · exact fun h => ⟨[last], h, rfl⟩

end UniversalAgent.Foundation.Shell
