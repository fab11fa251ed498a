import UniversalAgent.Foundation.Substitution
import UniversalAgent.Foundation.Text

/-!
# Security — Credential text

Credentials embedded in text (`redact_sensitive_text` of `security/secrets.py`): three regular
expressions, substituted one after another. Letters are compared without regard to case in the
first two, as `re.IGNORECASE` does it; which characters beyond ASCII are word characters, so where
`\b` holds, is a parameter.

The main result is that nothing is left over: redacted text has no match of any of the three.
-/

namespace UniversalAgent.Security

open UniversalAgent.Foundation UniversalAgent.Foundation.Substitution

variable {c : Char} {prev : Option Char} {cs : List Char} {m : Match}

/-! ## The parts of the patterns -/

/-- The word characters of `re`: known on ASCII, and never white space. -/
structure WordClass where
  isWord : Char → Bool
  ascii : ∀ c : Char, c.toNat < 128 → isWord c = (c.isAlphanum || c == '_')
  space : ∀ c : Char, Text.isSpace c = true → isWord c = false

variable (W : WordClass)

/-- `\b` between two characters, either of which may be missing. -/
def atBoundary (prev next : Option Char) : Bool := prev.any W.isWord != next.any W.isWord

/-- The character is matched by the small letter without regard to case. -/
def sameLetter (letter c : Char) : Bool :=
  c == letter || c == letter.toUpper || (letter == 's' && c == '\u017f') ||
    (letter == 'k' && c == '\u212a') || (letter == 'i' && (c == '\u0130' || c == '\u0131'))

def literal? : List Char → List Char → Option (List Char)
  | [], cs => some cs
  | w :: ws, c :: cs => if sameLetter w c then literal? ws cs else none
  | _ :: _, [] => none

/-- `bearer|basic`. -/
def scheme? (cs : List Char) : Option (List Char) :=
  literal? ['b', 'e', 'a', 'r', 'e', 'r'] cs <|> literal? ['b', 'a', 's', 'i', 'c'] cs

/-- `\s+`. -/
def spaces? : List Char → Option (List Char)
  | c :: cs => if Text.isSpace c then some (cs.dropWhile Text.isSpace) else none
  | [] => none

/-- `[A-Za-z0-9._~+/\-]`, without regard to case. -/
def isTokenChar (c : Char) : Bool :=
  c.isAlphanum || ['.', '_', '~', '+', '/', '-', '\u017f', '\u212a', '\u0130',
    '\u0131'].contains c

/-- `[A-Za-z0-9._~+/\-]+=*`. -/
def token? : List Char → Option (List Char)
  | c :: cs =>
    if isTokenChar c then some ((cs.dropWhile isTokenChar).dropWhile (· == '=')) else none
  | [] => none

/-- `[:=]`. -/
def separator? : List Char → Option (List Char)
  | c :: cs => if c == ':' || c == '=' then some cs else none
  | [] => none

/-- `[A-Za-z0-9_-]`. -/
def isSegmentChar (c : Char) : Bool := c.isAlphanum || c == '_' || c == '-'

/-- `[A-Za-z0-9_-]{8,}\.`. -/
def segment? (cs : List Char) : Option (List Char) :=
  if 8 ≤ (cs.takeWhile isSegmentChar).length then
    match cs.dropWhile isSegmentChar with
    | '.' :: rest => some rest
    | _ => none
  else none

/-- `[A-Za-z0-9_-]{8,}\b`, as long as it can be: the number of characters. -/
def lastSegment? (cs : List Char) : Option Nat :=
  (List.range ((cs.takeWhile isSegmentChar).length + 1)).reverse.find? fun n =>
    decide (8 ≤ n) && atBoundary W (cs.take n).getLast? (cs.drop n).head?

def jwtHeader? : List Char → Option (List Char)
  | 'e' :: 'y' :: 'J' :: rest => some rest
  | _ => none

/-! ## The patterns -/

/-- `(?:bearer|basic)\s+` and the token after it: what comes after each. -/
def credential? (cs : List Char) : Option (List Char × List Char) := do
  let spaced ← scheme? cs
  let token ← spaces? spaced
  let rest ← token? token
  some (token, rest)

/-- `_AUTHORIZATION_TEXT_PATTERN`. -/
def authorizationText : Pattern := fun prev cs =>
  if atBoundary W prev cs.head? then do
    let header ← literal? "authorization".toList cs
    let value ← separator? (header.dropWhile Text.isSpace)
    let (token, rest) ← credential? (value.dropWhile Text.isSpace)
    some ⟨cs.length - token.length, cs.length - rest.length⟩
  else none

/-- `_BEARER_TEXT_PATTERN`. -/
def bearerText : Pattern := fun prev cs =>
  if atBoundary W prev cs.head? then do
    let (token, rest) ← credential? cs
    some ⟨cs.length - token.length, cs.length - rest.length⟩
  else none

/-- `_JWT_TEXT_PATTERN`. -/
def jwtText : Pattern := fun prev cs =>
  if atBoundary W prev cs.head? then do
    let payload ← jwtHeader? cs >>= segment?
    let signature ← segment? payload
    let n ← lastSegment? W signature
    some ⟨0, cs.length - signature.length + n⟩
  else none

def redactedMark : String := "[REDACTED]"

def redactSensitiveText (replacement value : String) : String :=
  String.ofList
    (substitute (jwtText W) replacement.toList
      (substitute (bearerText W) replacement.toList
        (substitute (authorizationText W) replacement.toList value.toList)))


/-! ## What the patterns find -/

section Spec

variable {W : WordClass}

def Spelled (word cs : List Char) : Prop := List.Forall₂ (fun w c => sameLetter w c = true) word cs

theorem literal?_eq_some {word cs rest : List Char} :
    literal? word cs = some rest ↔ ∃ v, cs = v ++ rest ∧ Spelled word v := by
  induction word generalizing cs with
  | nil =>
    constructor
    · intro h
      exact ⟨[], by simpa [literal?] using h, .nil⟩
    · rintro ⟨v, rfl, hv⟩
      cases hv
      rfl
  | cons w word ih =>
    cases cs with
    | nil =>
      constructor
      · intro h
        cases h
      · rintro ⟨v, hv, hs⟩
        obtain ⟨rfl, -⟩ := List.append_eq_nil_iff.mp hv.symm
        cases hs
    | cons c cs =>
      constructor
      · intro h
        rw [literal?] at h
        split at h
        · rename_i hc
          obtain ⟨v, rfl, hv⟩ := ih.mp h
          exact ⟨c :: v, rfl, .cons hc hv⟩
        · cases h
      · rintro ⟨v, hv, hs⟩
        cases hs with
        | @cons _ d _ v hd hs =>
          obtain ⟨rfl, rfl⟩ := List.cons.inj hv
          rw [literal?, if_pos hd]
          exact ih.mpr ⟨v, rfl, hs⟩

def Scheme (v : List Char) : Prop :=
  Spelled ['b', 'e', 'a', 'r', 'e', 'r'] v ∨ Spelled ['b', 'a', 's', 'i', 'c'] v

variable {cs rest : List Char} {v : List Char} {x : Char}

theorem scheme?_eq_some (h : scheme? cs = some rest) : ∃ v, cs = v ++ rest ∧ Scheme v := by
  unfold scheme? at h
  cases hb : literal? ['b', 'e', 'a', 'r', 'e', 'r'] cs with
  | some r =>
    rw [hb] at h
    obtain ⟨v, hv, hs⟩ := literal?_eq_some.mp hb
    obtain rfl : r = rest := Option.some.inj h
    exact ⟨v, hv, .inl hs⟩
  | none =>
    rw [hb] at h
    obtain ⟨v, hv, hs⟩ := literal?_eq_some.mp h
    exact ⟨v, hv, .inr hs⟩

def candidates (letter : Char) : List Char :=
  [letter, letter.toUpper, '\u017f', '\u212a', '\u0130', '\u0131']

theorem mem_candidates {letter c : Char} (h : sameLetter letter c = true) : c ∈ candidates letter := by
  simp only [sameLetter, Bool.or_eq_true, Bool.and_eq_true, beq_iff_eq] at h
  simp only [candidates, List.mem_cons, List.not_mem_nil, or_false]
  tauto

/-- A check that every candidate of every letter of a word passes is passed by each character of
the word, however it is spelled. -/
theorem Spelled.all {word cs : List Char} (hs : Spelled word cs) (check : Char → Bool)
    (hw : (word.all fun w => (candidates w).all check) = true) : ∀ c ∈ cs, check c = true := by
  induction hs with
  | nil => exact fun c hc => absurd hc List.not_mem_nil
  | @cons w d word cs hd _ ih =>
    rw [List.all_cons, Bool.and_eq_true] at hw
    intro c hc
    rcases List.mem_cons.mp hc with rfl | hc
    · exact List.all_eq_true.mp hw.1 c (mem_candidates hd)
    · exact ih hw.2 c hc

theorem Scheme.not_space (hv : Scheme v) : ∀ c ∈ v, Text.isSpace c = false := by
  intro c hc
  rw [← Bool.not_eq_true']
  rcases hv with hs | hs
  · exact hs.all (fun c => !Text.isSpace c) (by decide +kernel) c hc
  · exact hs.all (fun c => !Text.isSpace c) (by decide +kernel) c hc

theorem Scheme.unmarked (hv : Scheme v) : '[' ∉ v := by
  intro hc
  rcases hv with hs | hs
  · exact absurd (hs.all (fun c => c != '[') (by decide +kernel) _ hc) (by decide)
  · exact absurd (hs.all (fun c => c != '[') (by decide +kernel) _ hc) (by decide)

theorem Scheme.head (hv : Scheme v) : ∃ c v', v = c :: v' ∧ (c = 'b' ∨ c = 'B') := by
  have hb : ∀ {word : List Char}, Spelled ('b' :: word) v → ∃ c v', v = c :: v' ∧ (c = 'b' ∨ c = 'B') := by
    intro word hs
    cases hs with
    | @cons _ c _ v' hc _ => exact ⟨c, v', rfl, by simpa [sameLetter] using hc⟩
  rcases hv with hs | hs
  · exact hb hs
  · exact hb hs

theorem scheme?_append (hv : Scheme v) (rest : List Char) : scheme? (v ++ rest) = some rest := by
  unfold scheme?
  rcases hv with hs | hs
  · rw [literal?_eq_some.mpr ⟨v, rfl, hs⟩]
    rfl
  · have hnone : literal? ['b', 'e', 'a', 'r', 'e', 'r'] (v ++ rest) = none := by
      cases hl : literal? ['b', 'e', 'a', 'r', 'e', 'r'] (v ++ rest) with
      | none => rfl
      | some r =>
        obtain ⟨v', hv', hs'⟩ := literal?_eq_some.mp hl
        rcases hs with _ | ⟨-, _ | ⟨ha, -⟩⟩
        rcases hs' with _ | ⟨-, _ | ⟨he, -⟩⟩
        simp only [List.cons_append, List.cons.injEq] at hv'
        obtain ⟨-, rfl, -⟩ := hv'
        simp only [sameLetter, Bool.or_eq_true, Bool.and_eq_true, beq_iff_eq] at ha he
        rcases he with ((((rfl | rfl) | h) | h) | h)
        · exact absurd ha (by decide)
        · exact absurd ha (by decide)
        · exact absurd h.1 (by decide)
        · exact absurd h.1 (by decide)
        · exact absurd h.1 (by decide)
    rw [hnone, literal?_eq_some.mpr ⟨v, rfl, hs⟩]
    rfl

theorem spaces?_eq_some (h : spaces? cs = some rest) :
    ∃ ws, cs = ws ++ rest ∧ ws ≠ [] ∧ ∀ c ∈ ws, Text.isSpace c = true := by
  cases cs with
  | nil => cases h
  | cons c cs =>
    rw [spaces?] at h
    split at h
    · rename_i hc
      obtain rfl : cs.dropWhile Text.isSpace = rest := Option.some.inj h
      refine ⟨c :: cs.takeWhile Text.isSpace, ?_, List.cons_ne_nil _ _, ?_⟩
      · rw [List.cons_append, List.takeWhile_append_dropWhile]
      · intro d hd
        rcases List.mem_cons.mp hd with rfl | hd
        · exact hc
        · exact List.mem_takeWhile_imp hd
    · cases h

theorem spaces?_append {ws : List Char} (hne : ws ≠ [])
    (hws : ∀ c ∈ ws, Text.isSpace c = true) (hx : Text.isSpace x = false) (rest : List Char) :
    spaces? (ws ++ x :: rest) = some (x :: rest) := by
  cases ws with
  | nil => exact absurd rfl hne
  | cons c ws =>
    have hrest : (ws ++ x :: rest).dropWhile Text.isSpace = x :: rest := by
      rw [List.dropWhile_append_of_pos fun d hd => hws d (List.mem_cons_of_mem _ hd),
        List.dropWhile_cons_of_neg (by simp [hx])]
    rw [List.cons_append, spaces?, if_pos (hws c List.mem_cons_self), hrest]

/-- A token takes all the token characters there are: where one comes right after it, the token
ends with the signs that may close it. -/
theorem token?_eq_some (h : token? cs = some rest) :
    ∃ x y, cs = x :: (y ++ rest) ∧ isTokenChar x = true ∧
      ∀ c cs', rest = c :: cs' → isTokenChar c = true → lastOr (some x) y = some '=' := by
  cases cs with
  | nil => cases h
  | cons x cs =>
    rw [token?] at h
    split at h
    · rename_i hx
      have hrest : (cs.dropWhile isTokenChar).dropWhile (· == '=') = rest := Option.some.inj h
      refine ⟨x, cs.takeWhile isTokenChar ++ (cs.dropWhile isTokenChar).takeWhile (· == '='),
        ?_, hx, ?_⟩
      · rw [← hrest, List.append_assoc, List.takeWhile_append_dropWhile,
          List.takeWhile_append_dropWhile]
      · intro c cs' hc hct
        have hne : (cs.dropWhile isTokenChar).takeWhile (· == '=') ≠ [] := by
          intro hnil
          have hall := List.takeWhile_append_dropWhile (p := (· == '='))
            (l := cs.dropWhile isTokenChar)
          rw [hnil, hrest, hc, List.nil_append] at hall
          have hhead := List.head?_dropWhile_not isTokenChar cs
          rw [← hall] at hhead
          simp [hct] at hhead
        rw [lastOr_append, lastOr_of_ne_nil _ hne, List.getLast?_eq_some_getLast hne]
        have hlast := List.mem_takeWhile_imp (List.getLast_mem hne)
        rw [beq_iff_eq] at hlast
        rw [hlast]
    · cases h

theorem isTokenChar_not_space (h : isTokenChar c = true) : Text.isSpace c = false := by
  have hcodes : ∀ n ∈ Text.spaceCodes, isTokenChar (Char.ofNat n) = false := by decide +kernel
  by_contra hs
  rw [Bool.not_eq_false, Text.isSpace, List.contains_iff_mem] at hs
  have := hcodes c.toNat hs
  rw [Char.ofNat_toNat, h] at this
  cases this

/-! ## Matches of the patterns -/

structure CredentialAt (v ws : List Char) (x : Char) : Prop where
  scheme : Scheme v
  spaced : ws ≠ []
  spaces : ∀ c ∈ ws, Text.isSpace c = true
  token : isTokenChar x = true

theorem credential?_eq_some {cs token rest : List Char}
    (h : credential? cs = some (token, rest)) :
    ∃ v ws x y, cs = v ++ ws ++ token ∧ token = x :: (y ++ rest) ∧ CredentialAt v ws x ∧
      ∀ c cs', rest = c :: cs' → isTokenChar c = true → lastOr (some x) y = some '=' := by
  unfold credential? at h
  obtain ⟨spaced, hscheme, h⟩ := Option.bind_eq_some_iff.mp h
  obtain ⟨t, hspaces, h⟩ := Option.bind_eq_some_iff.mp h
  obtain ⟨r, htoken, h⟩ := Option.bind_eq_some_iff.mp h
  obtain ⟨rfl, rfl⟩ := Prod.mk.inj (Option.some.inj h)
  obtain ⟨v, rfl, hv⟩ := scheme?_eq_some hscheme
  obtain ⟨ws, rfl, hne, hws⟩ := spaces?_eq_some hspaces
  obtain ⟨x, y, rfl, hx, hgreedy⟩ := token?_eq_some htoken
  exact ⟨v, ws, x, y, (List.append_assoc _ _ _).symm, rfl, ⟨hv, hne, hws, hx⟩, hgreedy⟩

theorem credential?_ne_none {v ws : List Char} (h : CredentialAt v ws x)
    (rest : List Char) : credential? (v ++ ws ++ x :: rest) ≠ none := by
  have htoken : token? (x :: rest) =
      some ((rest.dropWhile isTokenChar).dropWhile (· == '=')) := if_pos h.token
  rw [credential?, List.append_assoc, scheme?_append h.scheme]
  simp only [Option.bind_eq_bind, Option.bind_some]
  rw [spaces?_append h.spaced h.spaces (isTokenChar_not_space h.token), Option.bind_some, htoken]
  exact Option.some_ne_none _

theorem credential?_unmarked {v ws : List Char} (h : CredentialAt v ws x) : '[' ∉ v ++ ws ++ [x] := by
  have hspace : '[' ∉ ws := fun hm => absurd (h.spaces _ hm) (by decide)
  have htoken : '[' ≠ x := by
    rintro rfl
    exact absurd h.token (by decide)
  simp only [List.mem_append, List.mem_singleton, not_or]
  exact ⟨⟨h.scheme.unmarked, hspace⟩, htoken⟩

theorem bearerText_ne_none
    (hb : atBoundary W prev cs.head? = true) {v ws rest : List Char}
    (hcs : cs = v ++ ws ++ x :: rest) (h : CredentialAt v ws x) : bearerText W prev cs ≠ none := by
  have hne := credential?_ne_none h rest
  rw [← hcs] at hne
  rw [bearerText, if_pos hb]
  cases hc : credential? cs with
  | none => exact absurd hc hne
  | some p => exact Option.some_ne_none _

/-- What the pattern finds is a credential, kept up to the token, which is covered to its
end. -/
theorem bearerText_eq_some
    (h : bearerText W prev cs = some m) :
    atBoundary W prev cs.head? = true ∧ ∃ v ws x y rest,
      cs = v ++ ws ++ (x :: y) ++ rest ∧ CredentialAt v ws x ∧
        m = ⟨(v ++ ws).length, (v ++ ws ++ (x :: y)).length⟩ ∧
        ∀ c cs', rest = c :: cs' → isTokenChar c = true → lastOr (some x) y = some '=' := by
  rw [bearerText] at h
  split at h
  · rename_i hb
    obtain ⟨⟨token, rest⟩, hc, hm⟩ := Option.bind_eq_some_iff.mp h
    obtain ⟨v, ws, x, y, hcs, rfl, hat, hgreedy⟩ := credential?_eq_some hc
    refine ⟨hb, v, ws, x, y, rest, ?_, hat, ?_, hgreedy⟩
    · rw [hcs]
      simp only [List.append_assoc, List.cons_append]
    · rw [← Option.some.inj hm, hcs]
      simp only [List.length_append, List.length_cons, Match.mk.injEq]
      omega
  · cases h

/-- A separator and the white space after it end with a character that is no word character. -/
theorem separator_last {spaces : List Char} (hc : (c == ':' || c == '=') = true)
    (hs : ∀ e ∈ spaces, Text.isSpace e = true) :
    ∃ a d, c :: spaces = a ++ [d] ∧ W.isWord d = false := by
  rcases List.eq_nil_or_concat spaces with rfl | ⟨a, d, rfl⟩
  · refine ⟨[], c, rfl, ?_⟩
    rw [Bool.or_eq_true, beq_iff_eq, beq_iff_eq] at hc
    rcases hc with rfl | rfl
    · rw [W.ascii _ (by decide)]
      decide
    · rw [W.ascii _ (by decide)]
      decide
  · refine ⟨c :: a, d, by rw [List.concat_eq_append]; rfl, W.space d (hs d ?_)⟩
    rw [List.concat_eq_append]
    exact List.mem_append_right _ List.mem_cons_self

/-- A match of the pattern for headers has a credential in it, which follows a separator or white
space. -/
theorem authorizationText_eq_some
    (h : authorizationText W prev cs = some m) :
    ∃ a d v ws x y rest, cs = a ++ [d] ++ (v ++ ws) ++ (x :: y) ++ rest ∧ W.isWord d = false ∧
      CredentialAt v ws x ∧
      m = ⟨(a ++ [d] ++ (v ++ ws)).length, (a ++ [d] ++ (v ++ ws) ++ (x :: y)).length⟩ := by
  rw [authorizationText] at h
  split at h
  · obtain ⟨header, hheader, h⟩ := Option.bind_eq_some_iff.mp h
    obtain ⟨value, hvalue, h⟩ := Option.bind_eq_some_iff.mp h
    obtain ⟨⟨token, rest⟩, hc, hm⟩ := Option.bind_eq_some_iff.mp h
    obtain ⟨w, rfl, -⟩ := literal?_eq_some.mp hheader
    obtain ⟨v, ws, x, y, hcs, rfl, hat, -⟩ := credential?_eq_some hc
    cases hsep : header.dropWhile Text.isSpace with
    | nil =>
      rw [hsep] at hvalue
      cases hvalue
    | cons c value' =>
      rw [hsep, separator?] at hvalue
      split at hvalue
      · rename_i hcolon
        obtain rfl : value' = value := Option.some.inj hvalue
        have hheader' : header = header.takeWhile Text.isSpace ++
            c :: (value'.takeWhile Text.isSpace ++ (v ++ ws ++ x :: (y ++ rest))) := by
          rw [← hcs, List.takeWhile_append_dropWhile, ← hsep,
            List.takeWhile_append_dropWhile]
        obtain ⟨a, d, had, hd⟩ :=
          separator_last (W := W) hcolon fun e he => List.mem_takeWhile_imp he
        have hall : w ++ header = w ++ header.takeWhile Text.isSpace ++ a ++ [d] ++ (v ++ ws)
            ++ (x :: y) ++ rest := by
          have := congrArg (fun l => l ++ (v ++ ws ++ x :: (y ++ rest))) had
          simp only [List.cons_append, List.append_assoc] at this
          conv_lhs => rw [hheader']
          simp only [List.append_assoc, List.cons_append]
          rw [this]
        refine ⟨w ++ header.takeWhile Text.isSpace ++ a, d, v, ws, x, y, rest, hall, hd, hat, ?_⟩
        rw [← Option.some.inj hm, hall]
        simp only [List.length_append, List.length_cons, Match.mk.injEq]
        omega
      · cases hvalue
  · cases h

/-! ## JSON web tokens -/

def Segment (s : List Char) : Prop := 8 ≤ s.length ∧ ∀ c ∈ s, isSegmentChar c = true

theorem Segment.ne_nil {s : List Char} (h : Segment s) : s ≠ [] := by
  rintro rfl
  exact absurd h.1 (by decide)

theorem segment?_eq_some {cs rest : List Char} (h : segment? cs = some rest) :
    ∃ s, cs = s ++ '.' :: rest ∧ Segment s := by
  rw [segment?] at h
  split at h
  · rename_i hlen
    refine ⟨cs.takeWhile isSegmentChar, ?_, hlen, fun c hc => List.mem_takeWhile_imp hc⟩
    split at h
    · rename_i r hdrop
      obtain rfl : r = rest := Option.some.inj h
      rw [← hdrop, List.takeWhile_append_dropWhile]
    · cases h
  · cases h

theorem segment?_append {s : List Char} (h : Segment s) (rest : List Char) :
    segment? (s ++ '.' :: rest) = some rest := by
  have htake : (s ++ '.' :: rest).takeWhile isSegmentChar = s := by
    rw [List.takeWhile_append_of_pos h.2, List.takeWhile_cons_of_neg (by decide),
      List.append_nil]
  have hdrop : (s ++ '.' :: rest).dropWhile isSegmentChar = '.' :: rest := by
    rw [List.dropWhile_append_of_pos h.2, List.dropWhile_cons_of_neg (by decide)]
  rw [segment?, htake, hdrop]
  exact if_pos h.1

theorem lastSegment?_eq_some {n : Nat} (h : lastSegment? W cs = some n) :
    ∃ s rest, cs = s ++ rest ∧ s.length = n ∧ Segment s ∧
      atBoundary W s.getLast? rest.head? = true := by
  have hmem := List.mem_of_find?_eq_some h
  have hn := List.find?_some h
  rw [Bool.and_eq_true, decide_eq_true_iff] at hn
  rw [List.mem_reverse, List.mem_range] at hmem
  have hrun : cs.take n = (cs.takeWhile isSegmentChar).take n := by
    conv_lhs => rw [← List.takeWhile_append_dropWhile (p := isSegmentChar) (l := cs)]
    rw [List.take_append_of_le_length (by omega)]
  have hlen : (cs.take n).length = n := by
    rw [hrun, List.length_take]
    omega
  refine ⟨cs.take n, cs.drop n, (List.take_append_drop n cs).symm, hlen, ⟨?_, ?_⟩, hn.2⟩
  · rw [hlen]
    exact hn.1
  · intro c hc
    rw [hrun] at hc
    exact List.mem_takeWhile_imp (List.mem_of_mem_take hc)

theorem lastSegment?_ne_none {s rest : List Char} (h : Segment s)
    (hb : atBoundary W s.getLast? rest.head? = true) : lastSegment? W (s ++ rest) ≠ none := by
  intro hnone
  have hall := List.find?_eq_none.mp hnone s.length
  rw [List.mem_reverse, List.mem_range, List.takeWhile_append_of_pos h.2, List.length_append,
    List.take_left, List.drop_left] at hall
  exact hall (by omega) (by simp [h.1, hb])

def IsJwt (t : List Char) : Prop :=
  ∃ s₁ s₂ s₃, t = 'e' :: 'y' :: 'J' :: (s₁ ++ '.' :: (s₂ ++ '.' :: s₃)) ∧ Segment s₁ ∧ Segment s₂ ∧
    Segment s₃

theorem getLast?_jwt (s₁ s₂ : List Char) {s₃ : List Char} (h : Segment s₃) :
    ('e' :: 'y' :: 'J' :: (s₁ ++ '.' :: (s₂ ++ '.' :: s₃))).getLast? = s₃.getLast? := by
  have hsplit : 'e' :: 'y' :: 'J' :: (s₁ ++ '.' :: (s₂ ++ '.' :: s₃)) =
      ('e' :: 'y' :: 'J' :: (s₁ ++ '.' :: (s₂ ++ ['.']))) ++ s₃ := by
    simp only [List.cons_append, List.append_assoc, List.nil_append]
  rw [hsplit, List.getLast?_append_of_ne_nil _ h.ne_nil]

theorem IsJwt.unmarked {t : List Char} (h : IsJwt t) : '[' ∉ t := by
  obtain ⟨s₁, s₂, s₃, rfl, h₁, h₂, h₃⟩ := h
  have hs : ∀ {s}, Segment s → '[' ∉ s := fun hseg hm => absurd (hseg.2 _ hm) (by decide)
  simp [hs h₁, hs h₂, hs h₃]

theorem IsJwt.head {t : List Char} (h : IsJwt t) : ∃ t', t = 'e' :: t' := by
  obtain ⟨s₁, s₂, s₃, rfl, -⟩ := h
  exact ⟨_, rfl⟩

theorem jwtText_eq_some
    (h : jwtText W prev cs = some m) :
    atBoundary W prev cs.head? = true ∧ ∃ t rest, cs = t ++ rest ∧ IsJwt t ∧
      atBoundary W t.getLast? rest.head? = true ∧ m = ⟨0, t.length⟩ := by
  rw [jwtText] at h
  split at h
  · rename_i hb
    obtain ⟨payload, hpayload, h⟩ := Option.bind_eq_some_iff.mp h
    obtain ⟨header, hheader, hpayload⟩ := Option.bind_eq_some_iff.mp hpayload
    obtain ⟨signature, hsignature, h⟩ := Option.bind_eq_some_iff.mp h
    obtain ⟨n, hn, hm⟩ := Option.bind_eq_some_iff.mp h
    obtain ⟨s₁, rfl, h₁⟩ := segment?_eq_some hpayload
    obtain ⟨s₂, rfl, h₂⟩ := segment?_eq_some hsignature
    obtain ⟨s₃, rest, rfl, rfl, h₃, hend⟩ := lastSegment?_eq_some hn
    have hcs : cs = 'e' :: 'y' :: 'J' :: (s₁ ++ '.' :: (s₂ ++ '.' :: (s₃ ++ rest))) := by
      unfold jwtHeader? at hheader
      split at hheader
      · rw [Option.some.inj hheader]
      · cases hheader
    refine ⟨hb, 'e' :: 'y' :: 'J' :: (s₁ ++ '.' :: (s₂ ++ '.' :: s₃)), rest, ?_,
      ⟨s₁, s₂, s₃, rfl, h₁, h₂, h₃⟩, ?_, ?_⟩
    · rw [hcs]
      simp only [List.cons_append, List.append_assoc]
    · rwa [getLast?_jwt s₁ s₂ h₃]
    · rw [← Option.some.inj hm, hcs]
      simp only [List.length_append, List.length_cons, Match.mk.injEq, true_and]
      omega
  · cases h

theorem jwtText_ne_none {t rest : List Char}
    (hb : atBoundary W prev (t ++ rest).head? = true) (h : IsJwt t)
    (hend : atBoundary W t.getLast? rest.head? = true) : jwtText W prev (t ++ rest) ≠ none := by
  obtain ⟨s₁, s₂, s₃, rfl, h₁, h₂, h₃⟩ := h
  rw [getLast?_jwt s₁ s₂ h₃] at hend
  have hsplit : 'e' :: 'y' :: 'J' :: (s₁ ++ '.' :: (s₂ ++ '.' :: s₃)) ++ rest =
      'e' :: 'y' :: 'J' :: (s₁ ++ '.' :: (s₂ ++ '.' :: (s₃ ++ rest))) := by
    simp only [List.cons_append, List.append_assoc]
  rw [jwtText, if_pos hb, hsplit]
  simp only [jwtHeader?, Option.bind_eq_bind, Option.bind_some, segment?_append h₁,
    segment?_append h₂]
  cases hn : lastSegment? W (s₃ ++ rest) with
  | none => exact absurd hn (lastSegment?_ne_none h₃ hend)
  | some n => exact Option.some_ne_none _

/-! ## Nothing is left over -/

theorem bearerText_lawful : (bearerText W).Lawful := by
  intro prev cs m h
  obtain ⟨-, v, ws, x, y, rest, rfl, -, rfl, -⟩ := bearerText_eq_some h
  simp only [List.length_append, List.length_cons]
  omega

theorem jwtText_lawful : (jwtText W).Lawful := by
  intro prev cs m h
  obtain ⟨-, t, rest, rfl, ht, -, rfl⟩ := jwtText_eq_some h
  obtain ⟨t', rfl⟩ := ht.head
  simp only [List.length_append, List.length_cons]
  omega

def markTail : List Char := ['R', 'E', 'D', 'A', 'C', 'T', 'E', 'D', ']']

theorem redactedMark_toList : redactedMark.toList = '[' :: markTail := by decide +kernel

/-- The character before a position of the output, `q`, is one that a match of a pattern that begins
with one of `heads` may follow, only if the character before the position of the input is. -/
def Follows (W : WordClass) (heads : List Char) (q prev : Option Char) (cs : List Char) : Prop :=
  ∀ c cs', cs = c :: cs' → c ∈ heads → atBoundary W q (some c) = true →
    atBoundary W prev (some c) = true

theorem Follows.refl (heads : List Char) (prev : Option Char) (cs : List Char) :
    Follows W heads prev prev cs := fun _ _ _ _ h => h

theorem atBoundary_of_not_word (hprev : prev.any W.isWord = false)
    (hc : W.isWord c = true) : atBoundary W prev (some c) = true := by
  simp [atBoundary, hprev, hc]

theorem isWord_of_head (hc : c ∈ ['b', 'B', 'e']) : W.isWord c = true := by
  simp only [List.mem_cons, List.not_mem_nil, or_false] at hc
  rcases hc with rfl | rfl | rfl
  · rw [W.ascii _ (by decide)]
    decide
  · rw [W.ascii _ (by decide)]
    decide
  · rw [W.ascii _ (by decide)]
    decide

theorem bearerText_head (h : bearerText W prev (c :: cs) ≠ none) : c ∈ ['b', 'B'] := by
  obtain ⟨m, hm⟩ := Option.ne_none_iff_exists'.mp h
  obtain ⟨-, v, ws, x, y, rest, hcs, hat, -⟩ := bearerText_eq_some hm
  obtain ⟨d, v', rfl, hd⟩ := hat.scheme.head
  simp only [List.cons_append, List.cons.injEq] at hcs
  rw [hcs.1]
  simpa using hd

theorem jwtText_head (h : jwtText W prev (c :: cs) ≠ none) : c ∈ ['e'] := by
  obtain ⟨m, hm⟩ := Option.ne_none_iff_exists'.mp h
  obtain ⟨-, t, rest, hcs, ht, -⟩ := jwtText_eq_some hm
  obtain ⟨t', rfl⟩ := ht.head
  simp only [List.cons_append, List.cons.injEq] at hcs
  rw [hcs.1]
  exact List.mem_cons_self

/-- A credential in the output, where the substitution passes over its first character, is one in
the input. -/
theorem bearerText_passed {p : Pattern} {q prev : Option Char} {cs out : List Char}
    (h : Substitutes p ('[' :: markTail) prev (c :: cs) (c :: out))
    (hf : Follows W ['b', 'B'] q prev (c :: cs)) (hnone : bearerText W prev (c :: cs) = none) :
    bearerText W q (c :: out) = none := by
  by_contra hne
  have hhead := bearerText_head hne
  obtain ⟨m, hm⟩ := Option.ne_none_iff_exists'.mp hne
  obtain ⟨hb, v, ws, x, y, rest, hout, hat, -⟩ := bearerText_eq_some hm
  have hout' : c :: out = (v ++ ws ++ [x]) ++ (y ++ rest) := by
    rw [hout]
    simp only [List.append_assoc, List.cons_append, List.nil_append]
  obtain ⟨r, hr⟩ := h.unmarked hout' (credential?_unmarked hat)
  rw [List.append_assoc (v ++ ws), List.singleton_append] at hr
  exact bearerText_ne_none (hf c cs rfl hhead hb) hr hat hnone

/-- After white space between a scheme and a token comes white space or the token. -/
theorem spaces_after_space {v ws before after : List Char}
    (hv : ∀ d ∈ v, Text.isSpace d = false) (hws : ∀ d ∈ ws, Text.isSpace d = true)
    (hc : Text.isSpace c = true) (h : v ++ ws = before ++ c :: after) :
    ∀ d ∈ after, Text.isSpace d = true := by
  induction v generalizing before with
  | nil =>
    intro d hd
    rw [List.nil_append] at h
    exact hws d (h ▸ List.mem_append_right before (List.mem_cons_of_mem c hd))
  | cons a v ih =>
    cases before with
    | nil =>
      obtain ⟨rfl, -⟩ := List.cons.inj h
      rw [hv a List.mem_cons_self] at hc
      cases hc
    | cons b before =>
      exact ih (fun d hd => hv d (List.mem_cons_of_mem _ hd)) (List.cons.inj h).2

/-- No credential begins inside what is kept of one. -/
theorem bearerText_in_kept {v ws a b z : List Char} {x : Char}
    (hat : CredentialAt v ws x) (hkept : v ++ ws = a ++ c :: b) (q : Option Char) :
    bearerText W q (c :: (b ++ '[' :: z)) = none := by
  by_contra hne
  obtain ⟨m, hm⟩ := Option.ne_none_iff_exists'.mp hne
  obtain ⟨-, v', ws', x', y', rest', hcs, hat', -⟩ := bearerText_eq_some hm
  have hsplit : (v' ++ ws' ++ [x']) ++ (y' ++ rest') = (c :: b) ++ '[' :: z := by
    rw [List.cons_append, hcs]
    simp only [List.append_assoc, List.cons_append, List.nil_append]
  obtain ⟨C, hC, -⟩ := exists_append_of_unmarked (credential?_unmarked hat') hsplit
  -- the white space before the token is white space of the kept part, so the token is too
  obtain ⟨s, sp, rfl⟩ : ∃ s sp, ws' = s ++ [sp] := by
    rcases List.eq_nil_or_concat ws' with hnil | ⟨s, sp, hs⟩
    · exact absurd hnil hat'.spaced
    · exact ⟨s, sp, by rw [hs, List.concat_eq_append]⟩
  have hall : v ++ ws = (a ++ v' ++ s) ++ sp :: (x' :: C) := by
    rw [hkept, hC]
    simp only [List.append_assoc, List.cons_append, List.nil_append]
  have hspace := spaces_after_space hat.scheme.not_space hat.spaces
    (hat'.spaces sp (List.mem_append_right _ List.mem_cons_self)) hall x' List.mem_cons_self
  rw [isTokenChar_not_space hat'.token] at hspace
  cases hspace

theorem not_head_of_mem_mark {heads : List Char} (hheads : heads ⊆ ['b', 'B', 'e'])
    (hc : c ∈ '[' :: markTail) : c ∉ heads := by
  intro hm
  have hne : ∀ d ∈ ['b', 'B', 'e'], d ∉ '[' :: markTail := by simp [markTail]
  exact hne c (hheads hm) hc

/-- **A text whose credentials were replaced has none.** -/
theorem bearerText_unmatched {cs out : List Char}
    (h : Substitutes (bearerText W) ('[' :: markTail) prev cs out) :
    Unmatched (bearerText W) prev out := by
  refine h.unmatched (I := fun _ _ => True) (K := Follows W ['b', 'B']) (Follows.refl _)
    (fun _ _ _ _ => trivial) ?_ ?_ trivial (Follows.refl _ _ _)
  · intro q prev c cs out hf _ hnone hs
    exact bearerText_passed hs hf hnone
  · intro prev kept dropped cs hm
    obtain ⟨-, v, ws, x, y, rest, hcs, hat, hlen, hgreedy⟩ := bearerText_eq_some hm
    simp only [Match.mk.injEq] at hlen
    obtain ⟨hcovered, rfl⟩ := List.append_inj hcs hlen.2
    obtain ⟨rfl, rfl⟩ := List.append_inj hcovered hlen.1
    refine ⟨?_, ?_⟩
    · intro c cs' hc hhead _
      rw [lastOr_append, lastOr_cons]
      have htoken : isTokenChar c = true := by
        simp only [List.mem_cons, List.not_mem_nil, or_false] at hhead
        rcases hhead with rfl | rfl
        · decide
        · decide
      rw [hgreedy c cs' hc htoken]
      refine atBoundary_of_not_word ?_ (isWord_of_head (by simp at hhead ⊢; tauto))
      rw [Option.any_some, W.ascii _ (by decide)]
      decide
    · intro q a c b z hab
      rcases List.append_eq_append_iff.mp hab with ⟨a', ha', hmark⟩ | ⟨b', hb', hmark⟩
      · by_contra hne
        exact not_head_of_mem_mark (by simp) (hmark ▸ List.mem_append_right a' List.mem_cons_self)
          (bearerText_head hne)
      · cases b' with
        | nil =>
          by_contra hne
          rw [List.nil_append] at hmark
          exact not_head_of_mem_mark (by simp) (hmark ▸ List.mem_cons_self) (bearerText_head hne)
        | cons d b' =>
          simp only [List.cons_append, List.cons.injEq] at hmark
          obtain ⟨rfl, rfl⟩ := hmark
          rw [List.append_assoc, List.cons_append]
          exact bearerText_in_kept hat hb' _

/-- What follows a web token may follow its replacement. -/
theorem jwtText_found {kept dropped cs : List Char}
    (h : jwtText W prev (kept ++ dropped ++ cs) =
      some ⟨kept.length, (kept ++ dropped).length⟩) :
    (∀ {heads : List Char} (q : Option Char), Follows W heads q (lastOr prev (kept ++ dropped)) cs) ∧
      kept = [] := by
  obtain ⟨-, t, rest, hcs, ht, hend, hm⟩ := jwtText_eq_some h
  simp only [Match.mk.injEq, List.length_eq_zero_iff] at hm
  obtain ⟨rfl, hlen⟩ := hm
  obtain ⟨rfl, rfl⟩ := List.append_inj hcs hlen
  refine ⟨fun q c cs' hc _ _ => ?_, rfl⟩
  obtain ⟨t', ht'⟩ := ht.head
  rw [lastOr_of_ne_nil _ (by rw [ht']; exact List.cons_ne_nil _ _)]
  rwa [hc] at hend

/-- A web token in the output, where the substitution passes over its first character, is one in
the input: where it ends at a replacement, no web token could have begun there. -/
theorem jwtText_passed {q prev : Option Char} {cs out : List Char}
    (h : Substitutes (jwtText W) ('[' :: markTail) prev (c :: cs) (c :: out))
    (hf : Follows W ['e'] q prev (c :: cs)) (hnone : jwtText W prev (c :: cs) = none) :
    jwtText W q (c :: out) = none := by
  by_contra hne
  have hhead := jwtText_head hne
  obtain ⟨m, hm⟩ := Option.ne_none_iff_exists'.mp hne
  obtain ⟨hb, t, rest, hout, ht, hend, -⟩ := jwtText_eq_some hm
  have hkeep : ∀ prev cs m, jwtText W prev cs = some m → m.keep = 0 := by
    intro prev cs m hm
    obtain ⟨-, _, _, -, -, -, rfl⟩ := jwtText_eq_some hm
    rfl
  have hstart : atBoundary W prev (c :: cs).head? = true := hf c cs rfl hhead hb
  obtain ⟨t', ht'⟩ := ht.head
  obtain ⟨r, hr, hnext | ⟨hmark, hfound⟩⟩ := h.next_of_unmarked hkeep hout ht.unmarked
  · rw [hnext] at hend
    rw [hr] at hstart hnone
    exact jwtText_ne_none hstart ht hend hnone
  · obtain ⟨m', hm'⟩ := Option.ne_none_iff_exists'.mp hfound
    obtain ⟨hb', t₂, rest₂, rfl, ht₂, -⟩ := jwtText_eq_some hm'
    obtain ⟨t₂', rfl⟩ := ht₂.head
    have hmarkWord : W.isWord '[' = false := by
      rw [W.ascii _ (by decide)]
      decide
    have heWord : W.isWord 'e' = true := isWord_of_head (by simp)
    rw [lastOr_of_ne_nil _ (by rw [ht']; exact List.cons_ne_nil _ _)] at hb'
    rw [hmark] at hend
    simp only [atBoundary, List.cons_append, List.head?_cons, Option.any_some, hmarkWord, heWord,
      Bool.bne_true, Bool.bne_false] at hb' hend
    rw [hend] at hb'
    cases hb'

/-- Replacing web tokens brings no credential about. -/
theorem bearerText_unmatched_of_jwt {cs out : List Char}
    (h : Substitutes (jwtText W) ('[' :: markTail) prev cs out)
    (hcs : Unmatched (bearerText W) prev cs) : Unmatched (bearerText W) prev out := by
  refine h.unmatched (I := Unmatched (bearerText W)) (K := Follows W ['b', 'B']) (Follows.refl _)
    (fun _ _ _ hu => hu.right) ?_ ?_ hcs (Follows.refl _ _ _)
  · intro q prev c cs out hf hu _ hs
    exact bearerText_passed hs hf hu.1
  · intro prev kept dropped cs hm
    obtain ⟨hnext, hkept⟩ := jwtText_found hm
    subst hkept
    refine ⟨hnext _, fun q a c b z hab => ?_⟩
    by_contra hne
    rw [List.nil_append] at hab
    exact not_head_of_mem_mark (by simp) (hab ▸ List.mem_append_right a List.mem_cons_self)
      (bearerText_head hne)

/-- **A text whose web tokens were replaced has none.** -/
theorem jwtText_unmatched {cs out : List Char}
    (h : Substitutes (jwtText W) ('[' :: markTail) prev cs out) :
    Unmatched (jwtText W) prev out := by
  refine h.unmatched (I := fun _ _ => True) (K := Follows W ['e']) (Follows.refl _)
    (fun _ _ _ _ => trivial) ?_ ?_ trivial (Follows.refl _ _ _)
  · intro q prev c cs out hf _ hnone hs
    exact jwtText_passed hs hf hnone
  · intro prev kept dropped cs hm
    obtain ⟨hnext, hkept⟩ := jwtText_found hm
    subst hkept
    refine ⟨hnext _, fun q a c b z hab => ?_⟩
    by_contra hne
    rw [List.nil_append] at hab
    exact not_head_of_mem_mark (by simp) (hab ▸ List.mem_append_right a List.mem_cons_self)
      (jwtText_head hne)

theorem authorizationText_has_credential (prev : Option Char) (cs : List Char)
    (h : authorizationText W prev cs ≠ none) :
    ∃ a b, cs = a ++ b ∧ b ≠ [] ∧ bearerText W (lastOr prev a) b ≠ none := by
  obtain ⟨m, hm⟩ := Option.ne_none_iff_exists'.mp h
  obtain ⟨a, d, v, ws, x, y, rest, rfl, hd, hat, -⟩ := authorizationText_eq_some hm
  obtain ⟨c, v', rfl, hc⟩ := hat.scheme.head
  refine ⟨a ++ [d], (c :: v') ++ ws ++ x :: (y ++ rest), ?_, by simp, ?_⟩
  · simp only [List.append_assoc, List.cons_append, List.nil_append]
  · refine bearerText_ne_none ?_ rfl hat
    rw [lastOr_append, lastOr_cons, lastOr_nil]
    refine atBoundary_of_not_word (by rw [Option.any_some, hd]) (isWord_of_head ?_)
    simp
    tauto

theorem redactSensitiveText_of_unmatched {value : String} {replacement : String}
    (hbearer : Unmatched (bearerText W) none value.toList)
    (hjwt : Unmatched (jwtText W) none value.toList) :
    redactSensitiveText W replacement value = value := by
  have hheader := hbearer.of_imp authorizationText_has_credential
  unfold redactSensitiveText substitute
  rw [substituteFrom_unmatched hheader, substituteFrom_unmatched hbearer,
    substituteFrom_unmatched hjwt, String.ofList_toList]

theorem redactSensitiveText_idempotent (W : WordClass) (value : String) :
    redactSensitiveText W redactedMark (redactSensitiveText W redactedMark value) =
      redactSensitiveText W redactedMark value := by
  have hbearer := substitute_substitutes (bearerText_lawful (W := W)) ('[' :: markTail)
    (substitute (authorizationText W) ('[' :: markTail) value.toList)
  have hjwt := substitute_substitutes (jwtText_lawful (W := W)) ('[' :: markTail)
    (substitute (bearerText W) ('[' :: markTail)
      (substitute (authorizationText W) ('[' :: markTail) value.toList))
  have htext : (redactSensitiveText W redactedMark value).toList =
      substitute (jwtText W) ('[' :: markTail) (substitute (bearerText W) ('[' :: markTail)
        (substitute (authorizationText W) ('[' :: markTail) value.toList)) := by
    rw [redactSensitiveText, redactedMark_toList, String.toList_ofList]
  refine redactSensitiveText_of_unmatched ?_ ?_
  · rw [htext]
    exact bearerText_unmatched_of_jwt hjwt (bearerText_unmatched hbearer)
  · rw [htext]
    exact jwtText_unmatched hjwt

theorem redactSensitiveText_mark (W : WordClass) :
    redactSensitiveText W redactedMark redactedMark = redactedMark := by
  have hmem : ∀ {a c b}, '[' :: markTail = a ++ c :: b → c ∈ '[' :: markTail := by
    intro a c b h
    rw [h]
    exact List.mem_append_right a List.mem_cons_self
  refine redactSensitiveText_of_unmatched ?_ ?_
  · rw [redactedMark_toList, ← List.append_nil ('[' :: markTail)]
    refine Unmatched.append (fun a c b h => ?_) trivial
    by_contra hne
    exact not_head_of_mem_mark (by simp) (hmem h) (bearerText_head hne)
  · rw [redactedMark_toList, ← List.append_nil ('[' :: markTail)]
    refine Unmatched.append (fun a c b h => ?_) trivial
    by_contra hne
    exact not_head_of_mem_mark (by simp) (hmem h) (jwtText_head hne)

end Spec

end UniversalAgent.Security
