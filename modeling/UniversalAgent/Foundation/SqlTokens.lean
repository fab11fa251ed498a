import Mathlib

/-!
# Foundation — SqlTokens

The tokens of SQLite: words, literals, quoted names, comments, variables and operators, as far as it
takes to see where a statement begins and ends. Of an operator only the characters matter.

A text is a single SELECT if its tokens are legal, the first is the keyword, and after a semicolon
there are only semicolons.
-/

namespace UniversalAgent.Foundation.Sql

/-! ## Characters -/

def isSpace (c : Char) : Bool := c = ' ' || c = '\t' || c = '\n' || c = '\x0c' || c = '\r'

def inSpace (c : Char) : Bool := isSpace c || c = '\x0b'

def startsWord (c : Char) : Bool := c.isAlpha || c = '_' || decide (0x80 ≤ c.toNat)

def isIdChar (c : Char) : Bool := startsWord c || c.isDigit || c = '$'

def isOperator (c : Char) : Bool :=
  ['(', ')', '+', '-', '*', '/', '%', ',', '&', '|', '~', '=', '<', '>', '.'].contains c

/-! ## Tokens -/

inductive Token where
  | word (text : List Char)
  | semicolon
  | other
  | illegal
deriving DecidableEq

def afterQuoted (q : Char) : List Char → Option (List Char)
  | [] => none
  | [c] => if c = q then some [] else none
  | c :: d :: cs =>
    if c = q then if d = q then afterQuoted q cs else some (d :: cs)
    else afterQuoted q (d :: cs)

/-- What follows a comment. One that is not closed goes on to the end. -/
def afterComment : List Char → List Char
  | [] => []
  | [_] => []
  | c :: d :: cs => if c = '*' ∧ d = '/' then cs else afterComment (d :: cs)

def inDigits (c : Char) : Bool := c.isDigit || c = '_'

def afterFraction : List Char → List Char
  | '.' :: cs => cs.dropWhile inDigits
  | cs => cs

def afterExponent (cs : List Char) : List Char :=
  match cs with
  | e :: c :: rest =>
    if e ≠ 'e' ∧ e ≠ 'E' then cs
    else if c.isDigit then rest.dropWhile inDigits
    else
      match rest with
      | d :: rest' =>
        if (c = '+' ∨ c = '-') ∧ d.isDigit then rest'.dropWhile inDigits else cs
      | [] => cs
  | _ => cs

def afterNumber (c : Char) (cs : List Char) : List Char :=
  match cs with
  | x :: digit :: rest =>
    if c = '0' ∧ (x = 'x' ∨ x = 'X') ∧ digit.isHexDigit then
      rest.dropWhile fun d => d.isHexDigit || d = '_'
    else afterExponent (afterFraction (cs.dropWhile inDigits))
  | _ => afterExponent (afterFraction (cs.dropWhile inDigits))

def number (rest : List Char) : Option Token × List Char :=
  match rest with
  | [] => (some .other, [])
  | c :: cs => if isIdChar c then (some .illegal, cs.dropWhile isIdChar) else (some .other, rest)

def parameter (named : Bool) : List Char → Option Token × List Char
  | [] => (some (if named then .other else .illegal), [])
  | c :: cs =>
    if isIdChar c then parameter true cs
    else if c = '(' ∧ named = true then
      match cs.dropWhile fun d => !(inSpace d || d = ')') with
      | ')' :: rest => (some .other, rest)
      | rest => (some .illegal, rest)
    else
      match cs with
      | d :: rest =>
        if c = ':' ∧ d = ':' then parameter named rest
        else (some (if named then .other else .illegal), c :: d :: rest)
      | [] => (some (if named then .other else .illegal), [c])

def quoted (q : Char) (cs : List Char) : Option Token × List Char :=
  match afterQuoted q cs with
  | some rest => (some .other, rest)
  | none => (some .illegal, [])

def blob (cs : List Char) : Option Token × List Char :=
  match cs.dropWhile Char.isHexDigit with
  | '\'' :: rest =>
    (some (if (cs.takeWhile Char.isHexDigit).length % 2 = 0 then .other else .illegal), rest)
  | rest => (some .illegal, (rest.dropWhile (· ≠ '\'')).tail)

/-- The token that begins with a character other than a semicolon, none for white space and
comments, and what follows it. -/
def otherToken (c : Char) (cs : List Char) : Option Token × List Char :=
  if isSpace c then (none, cs.dropWhile inSpace)
  else if c = '\uFEFF' then (none, cs)
  else if c = '\'' ∨ c = '"' ∨ c = '`' then quoted c cs
  else if c = '[' then
    match cs.dropWhile (· ≠ ']') with
    | _ :: rest => (some .other, rest)
    | [] => (some .illegal, [])
  else if c = '-' ∧ cs.head? = some '-' then (none, cs.dropWhile (· ≠ '\n'))
  else if c = '/' ∧ cs.head? = some '*' ∧ cs.tail ≠ [] then (none, afterComment cs.tail)
  else if (c = 'x' ∨ c = 'X') ∧ cs.head? = some '\'' then blob cs.tail
  else if startsWord c then (some (.word (c :: cs.takeWhile isIdChar)), cs.dropWhile isIdChar)
  else if c.isDigit then number (afterNumber c cs)
  else if c = '.' ∧ (cs.head?.any Char.isDigit) = true then
    number (afterExponent (cs.dropWhile inDigits))
  else if c = '?' then (some .other, cs.dropWhile Char.isDigit)
  else if c = '$' ∨ c = '@' ∨ c = '#' ∨ c = ':' then parameter false cs
  else if c = '!' then
    if cs.head? = some '=' then (some .other, cs.tail) else (some .illegal, cs)
  else if isOperator c then (some .other, cs)
  else (some .illegal, cs)

def token (c : Char) (cs : List Char) : Option Token × List Char :=
  if c = ';' then (some .semicolon, cs) else otherToken c cs

/-- The tokens of a text of at most `n` characters. -/
def tokensOf : Nat → List Char → List Token
  | 0, _ => []
  | _ + 1, [] => []
  | n + 1, c :: cs => (token c cs).1.toList ++ tokensOf n (token c cs).2

def tokens (sql : String) : List Token := tokensOf sql.toList.length sql.toList

/-! ## Statements -/

def isSelect : List Token → Bool
  | .word w :: _ => w.map Char.toLower = "select".toList
  | _ => false

def isLegal (ts : List Token) : Bool := !ts.contains .illegal

def goesOn (ts : List Token) : Bool := (ts.dropWhile (· ≠ .semicolon)).any (· ≠ .semicolon)

def singleSelect (sql : String) : Bool :=
  isSelect (tokens sql) && isLegal (tokens sql) && !goesOn (tokens sql)

/-! ## Every token leaves a suffix -/

theorem afterQuoted_suffix {q : Char} {cs rest : List Char} (h : afterQuoted q cs = some rest) :
    rest <:+ cs := by
  fun_induction afterQuoted q cs
  · cases h
  · cases h
    exact List.nil_suffix
  · cases h
  · next ih => exact (ih h).trans ((List.suffix_cons _ _).trans (List.suffix_cons _ _))
  · cases h
    exact List.suffix_cons _ _
  · next ih => exact (ih h).trans (List.suffix_cons _ _)

theorem afterComment_suffix (cs : List Char) : afterComment cs <:+ cs := by
  fun_induction afterComment cs
  · exact List.suffix_rfl
  · exact List.nil_suffix
  · exact (List.suffix_cons _ _).trans (List.suffix_cons _ _)
  · next ih => exact ih.trans (List.suffix_cons _ _)

theorem afterFraction_suffix (cs : List Char) : afterFraction cs <:+ cs := by
  unfold afterFraction
  split
  · exact (List.dropWhile_suffix _).trans (List.suffix_cons _ _)
  · exact List.suffix_rfl

theorem afterExponent_suffix (cs : List Char) : afterExponent cs <:+ cs := by
  unfold afterExponent
  split
  · next e c rest =>
      split
      · exact List.suffix_rfl
      · split
        · exact (List.dropWhile_suffix _).trans ((List.suffix_cons _ _).trans (List.suffix_cons _ _))
        · split
          · split
            · exact (List.dropWhile_suffix _).trans ((List.suffix_cons _ _).trans
                ((List.suffix_cons _ _).trans (List.suffix_cons _ _)))
            · exact List.suffix_rfl
          · exact List.suffix_rfl
  · exact List.suffix_rfl

theorem afterNumber_suffix (c : Char) (cs : List Char) : afterNumber c cs <:+ cs := by
  have hdecimal : afterExponent (afterFraction (cs.dropWhile inDigits)) <:+ cs :=
    (afterExponent_suffix _).trans ((afterFraction_suffix _).trans (List.dropWhile_suffix _))
  unfold afterNumber
  split
  · split
    · exact (List.dropWhile_suffix _).trans ((List.suffix_cons _ _).trans (List.suffix_cons _ _))
    · exact hdecimal
  · exact hdecimal

/-- What is read is no semicolon and no word but the one that begins with `c`, and leaves a
suffix. -/
structure Reads (c : Char) (cs : List Char) (r : Option Token × List Char) : Prop where
  rest : r.2 <:+ cs
  ne : r.1 ≠ some .semicolon
  word : ∀ w, r.1 = some (.word w) → w = c :: cs.takeWhile isIdChar

namespace Reads

variable {c : Char} {cs : List Char}

theorem ite {p : Prop} [Decidable p] {r r' : Option Token × List Char} (h : Reads c cs r)
    (h' : Reads c cs r') : Reads c cs (if p then r else r') := by
  split
  · exact h
  · exact h'

variable {rest : List Char}

/-- What is left is a suffix, and what is read is neither a semicolon nor a word. -/
theorem none (h : rest <:+ cs) : Reads c cs (none, rest) :=
  ⟨h, by simp, by simp⟩

theorem other (h : rest <:+ cs) : Reads c cs (some .other, rest) :=
  ⟨h, by simp, by simp⟩

theorem illegal (h : rest <:+ cs) : Reads c cs (some .illegal, rest) :=
  ⟨h, by simp, by simp⟩

theorem ends (named : Bool) (h : rest <:+ cs) :
    Reads c cs (some (if named then Token.other else .illegal), rest) := by
  cases named
  · exact .illegal h
  · exact .other h

theorem number (h : rest <:+ cs) : Reads c cs (Sql.number rest) := by
  unfold Sql.number
  split
  · exact .other h
  · next d ds =>
      exact .ite (.illegal ((List.dropWhile_suffix _).trans ((List.suffix_cons d ds).trans h)))
        (.other h)

theorem parameter (named : Bool) (h : rest <:+ cs) : Reads c cs (Sql.parameter named rest) := by
  fun_induction Sql.parameter named rest
  · exact .ends _ h
  · next ih => exact ih ((List.suffix_cons _ _).trans h)
  · next heq =>
      exact .other ((List.suffix_cons _ _).trans (heq ▸ (List.dropWhile_suffix _).trans
        ((List.suffix_cons _ _).trans h)))
  · exact .illegal ((List.dropWhile_suffix _).trans ((List.suffix_cons _ _).trans h))
  · next ih => exact ih ((List.suffix_cons _ _).trans ((List.suffix_cons _ _).trans h))
  · exact .ends _ h
  · exact .ends _ h

theorem quoted (q : Char) : Reads c cs (Sql.quoted q cs) := by
  unfold Sql.quoted
  split
  · next heq => exact .other (afterQuoted_suffix heq)
  · exact .illegal List.nil_suffix

theorem bracket :
    Reads c cs (match cs.dropWhile (· ≠ ']') with
      | _ :: rest => (some .other, rest)
      | [] => (some .illegal, [])) := by
  split
  · next heq => exact .other ((List.suffix_cons _ _).trans (heq ▸ List.dropWhile_suffix _))
  · exact .illegal List.nil_suffix

theorem blob (h : rest <:+ cs) : Reads c cs (Sql.blob rest) := by
  unfold Sql.blob
  split
  · next heq =>
      have hrest := (List.suffix_cons _ _).trans ((heq ▸ List.dropWhile_suffix _).trans h)
      split
      · exact .other hrest
      · exact .illegal hrest
  · exact .illegal ((List.tail_suffix _).trans ((List.dropWhile_suffix _).trans
      ((List.dropWhile_suffix _).trans h)))

theorem otherToken (c : Char) (cs : List Char) : Reads c cs (Sql.otherToken c cs) :=
  .ite (.none (List.dropWhile_suffix _)) <|
  .ite (.none List.suffix_rfl) <|
  .ite (.quoted c) <|
  .ite .bracket <|
  .ite (.none (List.dropWhile_suffix _)) <|
  .ite (.none ((afterComment_suffix _).trans (List.tail_suffix _))) <|
  .ite (.blob (List.tail_suffix _)) <|
  .ite ⟨List.dropWhile_suffix _, by simp, by simp [eq_comm]⟩ <|
  .ite (.number (afterNumber_suffix c cs)) <|
  .ite (.number ((afterExponent_suffix _).trans (List.dropWhile_suffix _))) <|
  .ite (.other (List.dropWhile_suffix _)) <|
  .ite (.parameter false List.suffix_rfl) <|
  .ite (.ite (.other (List.tail_suffix _)) (.illegal List.suffix_rfl)) <|
  .ite (.other List.suffix_rfl) (.illegal List.suffix_rfl)

end Reads

/-! ## Semicolons -/

theorem token_semicolon (cs : List Char) : token ';' cs = (some .semicolon, cs) := rfl

theorem token_of_ne {c : Char} (hne : c ≠ ';') (cs : List Char) : token c cs = otherToken c cs :=
  if_neg hne

theorem token_space {c : Char} (h : isSpace c = true) (cs : List Char) :
    token c cs = (none, cs.dropWhile inSpace) := by
  have hne : c ≠ ';' := by
    rintro rfl
    exact absurd h (by decide)
  rw [token_of_ne hne]
  exact if_pos h

theorem token_suffix (c : Char) (cs : List Char) : (token c cs).2 <:+ cs := by
  by_cases hsemicolon : c = ';'
  · subst hsemicolon
    exact List.suffix_rfl
  · rw [token_of_ne hsemicolon]
    exact (Reads.otherToken c cs).rest

theorem word_subset (n : Nat) {cs w : List Char} (h : .word w ∈ tokensOf n cs) : w ⊆ cs := by
  induction n generalizing cs with
  | zero => cases h
  | succ n ih =>
    cases cs with
    | nil => cases h
    | cons c cs =>
      rw [tokensOf, List.mem_append] at h
      rcases h with h | h
      · by_cases hsemicolon : c = ';'
        · subst hsemicolon
          simp [token_semicolon] at h
        · rw [token_of_ne hsemicolon, Option.mem_toList] at h
          rw [(Reads.otherToken c cs).word w h]
          exact List.cons_subset_cons c (List.takeWhile_subset _)
      · exact fun d hd => List.mem_cons_of_mem c ((token_suffix c cs).subset (ih h hd))

/-- A text of white space and semicolons has no other tokens. -/
theorem tokensOf_trailing (n : Nat) {cs : List Char} (h : ∀ c ∈ cs, c = ';' ∨ isSpace c = true) :
    ∀ t ∈ tokensOf n cs, t = .semicolon := by
  induction n generalizing cs with
  | zero => exact fun t ht => nomatch ht
  | succ n ih =>
    cases cs with
    | nil => exact fun t ht => nomatch ht
    | cons c cs =>
      have hrest : ∀ t ∈ tokensOf n (token c cs).2, t = .semicolon :=
        ih fun d hd => h d (List.mem_cons_of_mem _ ((token_suffix c cs).subset hd))
      intro t ht
      rw [tokensOf, List.mem_append] at ht
      rcases ht with ht | ht
      · rcases h c List.mem_cons_self with rfl | hspace
        · simpa [token_semicolon] using ht
        · simp [token_space hspace] at ht
      · exact hrest t ht

/-- After the first semicolon there is nothing but white space and semicolons. -/
def Trailing (cs : List Char) : Prop :=
  ∀ before after, cs = before ++ ';' :: after → ∀ c ∈ after, c = ';' ∨ isSpace c = true

theorem Trailing.suffix {cs rest : List Char} (h : Trailing cs) (hsuffix : rest <:+ cs) :
    Trailing rest := by
  obtain ⟨before, rfl⟩ := hsuffix
  rintro before' after rfl
  exact h (before ++ before') after (List.append_assoc _ _ _).symm

/-- Then no token but semicolons follows a semicolon. -/
theorem goesOn_trailing (n : Nat) {cs : List Char} (h : Trailing cs) :
    goesOn (tokensOf n cs) = false := by
  induction n generalizing cs with
  | zero => rfl
  | succ n ih =>
    cases cs with
    | nil => rfl
    | cons c cs =>
      have hrest := ih ((h.suffix (List.suffix_cons c cs)).suffix (token_suffix c cs))
      rw [tokensOf]
      by_cases hsemicolon : c = ';'
      · subst hsemicolon
        have hall := tokensOf_trailing n (h [] cs rfl)
        simpa [goesOn, token_semicolon] using hall
      · have hne := token_of_ne hsemicolon cs ▸ (Reads.otherToken c cs).ne
        cases htoken : (token c cs).1 with
        | none => simpa [htoken] using hrest
        | some t =>
          have ht : t ≠ .semicolon := fun heq => hne (htoken.trans (congrArg some heq))
          simpa [htoken, goesOn, ht] using hrest

end UniversalAgent.Foundation.Sql
