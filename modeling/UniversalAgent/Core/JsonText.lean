import UniversalAgent.Core.Json
import UniversalAgent.Foundation.Separators
import UniversalAgent.Foundation.Text

/-!
# Core — JSON text

The compact text with sorted keys that `dumps_json` (`core/json_codec.py`) writes. The serializer is `orjson`,
which is not part of the repository: the forms are those of JSON, and a float's text is a parameter, of which
nothing is used but that it is a number's, that it is no integer's, and that it is no other float's. A
non-finite float is written as null.

One text is of one value: what is written of two values is the same only if the values, with their keys
sorted and non-finite floats read as null, are.
-/

namespace UniversalAgent.Core

open UniversalAgent.Foundation

/-! ## Writing -/

def isNumberChar (c : Char) : Bool := c.isDigit || c = '-' || c = '+' || c = '.' || c = 'e'

structure FloatText where
  text : ℚ → String
  number : ∀ q, ∀ c ∈ (text q).toList, isNumberChar c = true
  fraction : ∀ q, '.' ∈ (text q).toList ∨ 'e' ∈ (text q).toList
  injective : Function.Injective text

namespace JsonText

def hexDigit (n : Nat) : Char := "0123456789abcdef".toList.getD n '0'

def controlEscape (n : Nat) : List Char :=
  if n = 8 then ['b'] else if n = 9 then ['t'] else if n = 10 then ['n'] else if n = 12 then ['f']
  else if n = 13 then ['r'] else ['u', '0', '0', hexDigit (n / 16), hexDigit (n % 16)]

def escapeChar (c : Char) : List Char :=
  if c = '"' then ['\\', '"'] else if c = '\\' then ['\\', '\\']
  else if c.toNat < 32 then '\\' :: controlEscape c.toNat else [c]

def quoteTail (cs : List Char) : List Char := cs.flatMap escapeChar ++ ['"']

def quote (s : String) : List Char := '"' :: quoteTail s.toList

section Writing

variable (floats : FloatText)

mutual

def write : Json → List Char
  | .null => "null".toList
  | .bool true => "true".toList
  | .bool false => "false".toList
  | .int i => i.repr.toList
  | .float (.finite q) => (floats.text q).toList
  | .float (.infinite _) => "null".toList
  | .float .nan => "null".toList
  | .str s => quote s
  | .arr items => '[' :: writeItems [] items
  | .obj fields => '\x7b' :: writeFields [] fields

/-- The items that are left, each behind a comma but the first of all. -/
def writeItems (sep : List Char) : List Json → List Char
  | [] => [']']
  | x :: xs => sep ++ (write x ++ writeItems [','] xs)

def writeFields (sep : List Char) : List (String × Json) → List Char
  | [] => ['\x7d']
  | (k, x) :: xs => sep ++ (quote k ++ ':' :: (write x ++ writeFields [','] xs))

end

end Writing

mutual

def sortKeys : Json → Json
  | .null => .null
  | .bool b => .bool b
  | .int i => .int i
  | .float x => .float x
  | .str s => .str s
  | .arr items => .arr (sortItems items)
  | .obj fields => .obj ((sortFields fields).insertionSort fun a b => a.1 ≤ b.1)

def sortItems : List Json → List Json
  | [] => []
  | x :: xs => sortKeys x :: sortItems xs

def sortFields : List (String × Json) → List (String × Json)
  | [] => []
  | (k, x) :: xs => (k, sortKeys x) :: sortFields xs

end

mutual

def settle : Json → Json
  | .null => .null
  | .bool b => .bool b
  | .int i => .int i
  | .float (.finite q) => .float (.finite q)
  | .float (.infinite _) => .null
  | .float .nan => .null
  | .str s => .str s
  | .arr items => .arr (settleItems items)
  | .obj fields => .obj (settleFields fields)

def settleItems : List Json → List Json
  | [] => []
  | x :: xs => settle x :: settleItems xs

def settleFields : List (String × Json) → List (String × Json)
  | [] => []
  | (k, x) :: xs => (k, settle x) :: settleFields xs

end

def canonical (v : Json) : Json := settle (sortKeys v)

/-- `dumps_json(value)`. -/
def dumps (floats : FloatText) (v : Json) : String := String.ofList (write floats (sortKeys v))

/-! ## Escapes -/

def escapedCodes : List Nat := [34, 92] ++ List.range 32

theorem escapeChar_plain {c : Char} (h : c.toNat ∉ escapedCodes) : escapeChar c = [c] := by
  unfold escapedCodes at h
  rw [List.mem_append, not_or, List.mem_range] at h
  unfold escapeChar
  rw [if_neg (by rintro rfl; exact h.1 (by decide)), if_neg (by rintro rfl; exact h.1 (by decide)),
    if_neg h.2]

/-- A character that is escaped is behind a backslash. -/
theorem escapeChar_escaped {c : Char} (h : c.toNat ∈ escapedCodes) : ∃ d tail, d ≠ '|' ∧
    (∀ e ∈ tail, e ≠ '"' ∧ e ≠ '\\') ∧ escapeChar c = '\\' :: d :: tail := by
  have hall : ∀ n ∈ escapedCodes, (escapeChar (Char.ofNat n)).head? = some '\\' ∧
      (escapeChar (Char.ofNat n)).tail.head?.any (· ≠ '|') = true ∧
        (escapeChar (Char.ofNat n)).tail.tail.all (fun e => e ≠ '"' ∧ e ≠ '\\') = true := by
    decide +kernel
  have hc := hall c.toNat h
  rw [Char.ofNat_toNat, Option.any_eq_true, List.all_eq_true] at hc
  obtain ⟨hhead, ⟨d, hd, hbar⟩, htail⟩ := hc
  refine ⟨d, _, of_decide_eq_true hbar, fun e he => of_decide_eq_true (htail e he), ?_⟩
  rw [List.cons_head?_tail hd, List.cons_head?_tail hhead]

theorem escapeChar_prefix {c d : Char} {x y : List Char} (h : escapeChar c ++ x = escapeChar d ++ y) :
    c = d ∧ x = y := by
  by_cases hc : c.toNat ∈ escapedCodes
  · by_cases hd : d.toNat ∈ escapedCodes
    · have hall : ∀ m ∈ escapedCodes, ∀ n ∈ escapedCodes,
          (escapeChar (Char.ofNat m)).isPrefixOf (escapeChar (Char.ofNat n)) = true → m = n := by
        decide +kernel
      have hcode : c.toNat = d.toNat := by
        rcases List.prefix_or_prefix_of_prefix (List.prefix_append (escapeChar c) x)
          (h ▸ List.prefix_append (escapeChar d) y) with hpre | hpre
        · refine hall _ hc _ hd ?_
          rw [Char.ofNat_toNat, Char.ofNat_toNat]
          exact List.isPrefixOf_iff_prefix.mpr hpre
        · refine (hall _ hd _ hc ?_).symm
          rw [Char.ofNat_toNat, Char.ofNat_toNat]
          exact List.isPrefixOf_iff_prefix.mpr hpre
      obtain rfl : c = d := Char.toNat_inj.mp hcode
      exact ⟨rfl, List.append_cancel_left h⟩
    · obtain ⟨e, tail, -, -, heq⟩ := escapeChar_escaped hc
      rw [heq, escapeChar_plain hd] at h
      obtain ⟨rfl, -⟩ := List.cons.inj h
      exact absurd (by decide) hd
  · by_cases hd : d.toNat ∈ escapedCodes
    · obtain ⟨e, tail, -, -, heq⟩ := escapeChar_escaped hd
      rw [heq, escapeChar_plain hc] at h
      obtain ⟨rfl, -⟩ := List.cons.inj h
      exact absurd (by decide) hc
    · rw [escapeChar_plain hc, escapeChar_plain hd] at h
      exact List.cons.inj h

/-- An escape does not begin with the mark that closes a text. -/
theorem escapeChar_head {c : Char} {x y : List Char} : escapeChar c ++ x ≠ '"' :: y := by
  intro h
  by_cases hc : c.toNat ∈ escapedCodes
  · obtain ⟨e, tail, -, -, heq⟩ := escapeChar_escaped hc
    rw [heq] at h
    exact absurd (List.cons.inj h).1 (by decide)
  · rw [escapeChar_plain hc] at h
    obtain ⟨rfl, -⟩ := List.cons.inj h
    exact hc (by decide)

theorem quoteTail_prefix {s s' x y : List Char} (h : quoteTail s ++ x = quoteTail s' ++ y) :
    s = s' ∧ x = y := by
  unfold quoteTail at h
  induction s generalizing s' with
  | nil =>
    cases s' with
    | nil => exact ⟨rfl, (List.cons.inj h).2⟩
    | cons d s' =>
      have hhead : escapeChar d ++ (s'.flatMap escapeChar ++ '"' :: y) = '"' :: x := by simpa using h.symm
      exact absurd hhead escapeChar_head
  | cons c s ih =>
    cases s' with
    | nil =>
      have hhead : escapeChar c ++ (s.flatMap escapeChar ++ '"' :: x) = '"' :: y := by simpa using h
      exact absurd hhead escapeChar_head
    | cons d s' =>
      rw [List.flatMap_cons, List.flatMap_cons, List.append_assoc, List.append_assoc, List.append_assoc,
        List.append_assoc] at h
      obtain ⟨rfl, hrest⟩ := escapeChar_prefix h
      rw [← List.append_assoc, ← List.append_assoc] at hrest
      obtain ⟨rfl, hxy⟩ := ih hrest
      exact ⟨rfl, hxy⟩

/-! ## Numbers -/

/-- What comes behind a value: nothing that a number could go on with. -/
def Follows (cs : List Char) : Prop := ∀ c ∈ cs.head?, isNumberChar c = false

theorem takeWhile_number {cs rest : List Char} (hcs : ∀ c ∈ cs, isNumberChar c = true) (h : Follows rest) :
    (cs ++ rest).takeWhile isNumberChar = cs := by
  rw [List.takeWhile_append_of_pos hcs]
  cases rest with
  | nil => exact List.append_nil cs
  | cons c rest =>
    rw [List.takeWhile_cons_of_neg (by rw [h c rfl]; exact Bool.false_ne_true), List.append_nil]

theorem number_prefix {cs cs' rest rest' : List Char} (hcs : ∀ c ∈ cs, isNumberChar c = true)
    (hcs' : ∀ c ∈ cs', isNumberChar c = true) (h : Follows rest) (h' : Follows rest')
    (heq : cs ++ rest = cs' ++ rest') : cs = cs' ∧ rest = rest' := by
  have hnumber : cs = cs' := by
    rw [← takeWhile_number hcs h, heq, takeWhile_number hcs' h']
  subst hnumber
  exact ⟨rfl, List.append_cancel_left heq⟩

theorem int_chars (i : Int) : ∀ c ∈ i.repr.toList, c.isDigit = true ∨ c = '-' := by
  intro c hc
  unfold Int.repr at hc
  split at hc
  · next n => exact .inl (Text.isDigit_of_mem_toString (n := n) hc)
  · next n =>
    rw [String.toList_append, List.mem_append] at hc
    rcases hc with hc | hc
    · exact .inr (by simpa using hc)
    · exact .inl (Text.isDigit_of_mem_toString (n := n + 1) hc)

theorem int_number (i : Int) : ∀ c ∈ i.repr.toList, isNumberChar c = true := by
  intro c hc
  unfold isNumberChar
  rcases int_chars i c hc with h | rfl
  · rw [h]
    rfl
  · rfl

theorem int_ne_nil (i : Int) : i.repr.toList ≠ [] := by
  unfold Int.repr
  split
  · next n =>
    rw [Nat.toList_repr]
    exact Nat.toDigits_ne_nil
  · next n =>
    rw [String.toList_append]
    exact List.cons_ne_nil _ _

theorem int_ne_float (floats : FloatText) (i : Int) (q : ℚ) :
    i.repr.toList ≠ (floats.text q).toList := by
  intro h
  rcases floats.fraction q with hc | hc
  · rw [← h] at hc
    exact absurd (int_chars i _ hc) (by decide)
  · rw [← h] at hc
    exact absurd (int_chars i _ hc) (by decide)

/-! ## What a text begins with -/

inductive Form where
  | null | bool | number | text | list | mapping
deriving DecidableEq

def form : Json → Form
  | .null => .null
  | .bool _ => .bool
  | .int _ => .number
  | .float (.finite _) => .number
  | .float (.infinite _) => .null
  | .float .nan => .null
  | .str _ => .text
  | .arr _ => .list
  | .obj _ => .mapping

def formOf (c : Char) : Option Form :=
  if isNumberChar c then some .number
  else if c = 'n' then some .null
  else if c = 't' ∨ c = 'f' then some .bool
  else if c = '"' then some .text
  else if c = '[' then some .list
  else if c = '\x7b' then some .mapping
  else none

section Writing

variable (floats : FloatText)

theorem head_of_number {cs : List Char} (hcs : ∀ c ∈ cs, isNumberChar c = true) (hne : cs ≠ []) :
    ∃ c tail, cs = c :: tail ∧ formOf c = some .number := by
  obtain ⟨c, tail, rfl⟩ := List.exists_cons_of_ne_nil hne
  exact ⟨c, tail, rfl, if_pos (hcs c List.mem_cons_self)⟩

theorem head_write (v : Json) : ∃ c tail, write floats v = c :: tail ∧ formOf c = some (form v) := by
  have hnull : ∃ c tail, "null".toList = c :: tail ∧ formOf c = some .null :=
    ⟨'n', ['u', 'l', 'l'], rfl, by decide⟩
  have htext : formOf '"' = some .text := by decide
  have hlist : formOf '[' = some .list := by decide
  have hmapping : formOf '\x7b' = some .mapping := by decide
  cases v with
  | null => exact hnull
  | bool b =>
    cases b with
    | true => exact ⟨'t', ['r', 'u', 'e'], rfl, by decide⟩
    | false => exact ⟨'f', ['a', 'l', 's', 'e'], rfl, by decide⟩
  | int i =>
    exact head_of_number (int_number i) (int_ne_nil i)
  | float x =>
    cases x with
    | finite q =>
      refine head_of_number (floats.number q) fun hnil => ?_
      have hfraction := floats.fraction q
      rw [show (floats.text q).toList = [] from hnil] at hfraction
      exact hfraction.elim nofun nofun
    | infinite negative => exact hnull
    | nan => exact hnull
  | str s => exact ⟨'"', _, rfl, htext⟩
  | arr items => exact ⟨'[', _, rfl, hlist⟩
  | obj fields => exact ⟨'\x7b', _, rfl, hmapping⟩

variable {floats} {v w : Json} {x y : List Char}

theorem form_eq (h : write floats v ++ x = write floats w ++ y) : form v = form w := by
  obtain ⟨c, tail, hv, hc⟩ := head_write floats v
  obtain ⟨d, tail', hw, hd⟩ := head_write floats w
  rw [hv, hw] at h
  obtain ⟨rfl, -⟩ := List.cons.inj h
  exact Option.some.inj (hc.symm.trans hd)

/-- No value begins with a character that no form begins with. -/
theorem write_ne {c : Char} (hc : formOf c = none) : write floats v ++ x ≠ c :: y := by
  intro h
  obtain ⟨d, tail, hv, hd⟩ := head_write floats v
  rw [hv] at h
  obtain ⟨rfl, -⟩ := List.cons.inj h
  rw [hc] at hd
  cases hd

theorem of_form_null (h : form w = .null) : write floats w = "null".toList ∧ settle w = .null := by
  cases w with
  | null => exact ⟨rfl, rfl⟩
  | float x =>
    cases x with
    | finite q => cases h
    | infinite negative => exact ⟨rfl, rfl⟩
    | nan => exact ⟨rfl, rfl⟩
  | bool b => cases h
  | int i => cases h
  | str s => cases h
  | arr items => cases h
  | obj fields => cases h

theorem of_form_number (h : form w = .number) :
    (∃ i, w = .int i) ∨ ∃ q, w = .float (.finite q) := by
  cases w with
  | int i => exact .inl ⟨i, rfl⟩
  | float x =>
    cases x with
    | finite q => exact .inr ⟨q, rfl⟩
    | infinite negative => cases h
    | nan => cases h
  | null => cases h
  | bool b => cases h
  | str s => cases h
  | arr items => cases h
  | obj fields => cases h

theorem number_write (h : form w = .number) : ∀ c ∈ write floats w, isNumberChar c = true := by
  rcases of_form_number h with ⟨i, rfl⟩ | ⟨q, rfl⟩
  · exact int_number i
  · exact floats.number q

theorem number_injective (hv : form v = .number) (hw : form w = .number)
    (h : write floats v = write floats w) : v = w := by
  rcases of_form_number hv with ⟨i, rfl⟩ | ⟨q, rfl⟩
  · rcases of_form_number hw with ⟨j, rfl⟩ | ⟨q, rfl⟩
    · exact congrArg Json.int (Int.repr_injective (String.toList_inj.mp h))
    · exact absurd h (int_ne_float floats i q)
  · rcases of_form_number hw with ⟨j, rfl⟩ | ⟨q', rfl⟩
    · exact absurd h.symm (int_ne_float floats j q)
    · rw [floats.injective (String.toList_inj.mp h)]

theorem follows_items (items : List Json) (x : List Char) : Follows (writeItems floats [','] items ++ x) := by
  cases items with
  | nil => exact fun c hc => by obtain rfl := Option.some.inj hc; decide
  | cons item items => exact fun c hc => by obtain rfl := Option.some.inj hc; decide

theorem follows_fields (fields : List (String × Json)) (x : List Char) :
    Follows (writeFields floats [','] fields ++ x) := by
  cases fields with
  | nil => exact fun c hc => by obtain rfl := Option.some.inj hc; decide
  | cons field fields => exact fun c hc => by obtain rfl := Option.some.inj hc; decide

/-! ## One text, one value -/

theorem number_write_prefix (hform : form v = form w) (hv : form v = .number) (hx : Follows x)
    (hy : Follows y) (h : write floats v ++ x = write floats w ++ y) : settle v = settle w ∧ x = y := by
  have hw := hform.symm.trans hv
  obtain ⟨htext, hrest⟩ := number_prefix (number_write hv) (number_write hw) hx hy h
  exact ⟨congrArg settle (number_injective hv hw htext), hrest⟩

theorem null_write_prefix (hform : form v = form w) (hv : form v = .null)
    (h : write floats v ++ x = write floats w ++ y) : settle v = settle w ∧ x = y := by
  obtain ⟨htext, hvalue⟩ := @of_form_null floats _ hv
  obtain ⟨htext', hvalue'⟩ := @of_form_null floats _ (hform.symm.trans hv)
  rw [htext, htext'] at h
  exact ⟨hvalue.trans hvalue'.symm, List.append_cancel_left h⟩

mutual

/-- **The text of a value** tells it from what comes behind. -/
theorem write_splits : ∀ (v w : Json) (x y : List Char), Follows x → Follows y →
    write floats v ++ x = write floats w ++ y → settle v = settle w ∧ x = y
  | .null, w, x, y, _, _, h => null_write_prefix (form_eq h) rfl h
  | .int i, w, x, y, hx, hy, h => number_write_prefix (form_eq h) rfl hx hy h
  | .float (.finite q), w, x, y, hx, hy, h => number_write_prefix (form_eq h) rfl hx hy h
  | .float (.infinite negative), w, x, y, _, _, h => null_write_prefix (form_eq h) rfl h
  | .float .nan, w, x, y, _, _, h => null_write_prefix (form_eq h) rfl h
  | .bool b, w, x, y, _, _, h => by
      have hform := form_eq h
      cases w with
      | bool b' =>
        cases b <;> cases b'
        · exact ⟨rfl, List.append_cancel_left h⟩
        · exact absurd (List.cons.inj h).1 (by decide)
        · exact absurd (List.cons.inj h).1 (by decide)
        · exact ⟨rfl, List.append_cancel_left h⟩
      | float x => cases x <;> cases hform
      | null | int _ | str _ | arr _ | obj _ => cases hform
  | .str s, w, x, y, _, _, h => by
      have hform := form_eq h
      cases w with
      | str s' =>
        obtain ⟨hs, hrest⟩ := quoteTail_prefix (List.cons.inj h).2
        rw [String.toList_inj.mp hs]
        exact ⟨rfl, hrest⟩
      | float x => cases x <;> cases hform
      | null | int _ | bool _ | arr _ | obj _ => cases hform
  | .arr items, w, x, y, _, _, h => by
      have hform := form_eq h
      cases w with
      | arr items' =>
        obtain ⟨hitems, hrest⟩ := writeItems_prefix items items' [] x y (.inl rfl) (List.cons.inj h).2
        exact ⟨congrArg Json.arr hitems, hrest⟩
      | float x => cases x <;> cases hform
      | null | int _ | bool _ | str _ | obj _ => cases hform
  | .obj fields, w, x, y, _, _, h => by
      have hform := form_eq h
      cases w with
      | obj fields' =>
        obtain ⟨hfields, hrest⟩ := writeFields_prefix fields fields' [] x y (.inl rfl) (List.cons.inj h).2
        exact ⟨congrArg Json.obj hfields, hrest⟩
      | float x => cases x <;> cases hform
      | null | int _ | bool _ | str _ | arr _ => cases hform

theorem writeItems_prefix : ∀ (xs ys : List Json) (sep x y : List Char), sep = [] ∨ sep = [','] →
    writeItems floats sep xs ++ x = writeItems floats sep ys ++ y → settleItems xs = settleItems ys ∧ x = y
  | [], [], _, x, y, _, h => ⟨rfl, (List.cons.inj h).2⟩
  | [], v :: ys, sep, x, y, hsep, h => by
      rcases hsep with rfl | rfl
      · have hhead : write floats v ++ (writeItems floats [','] ys ++ y) = ']' :: x := by
          rw [← List.append_assoc]
          exact h.symm
        exact absurd hhead (write_ne (by decide))
      · exact absurd (List.cons.inj h).1 (by decide)
  | v :: xs, [], sep, x, y, hsep, h => by
      rcases hsep with rfl | rfl
      · have hhead : write floats v ++ (writeItems floats [','] xs ++ x) = ']' :: y := by
          rw [← List.append_assoc]
          exact h
        exact absurd hhead (write_ne (by decide))
      · exact absurd (List.cons.inj h).1 (by decide)
  | v :: xs, w :: ys, sep, x, y, _, h => by
      simp only [writeItems, List.append_assoc] at h
      obtain ⟨hvalue, hrest⟩ := write_splits v w _ _ (follows_items xs x) (follows_items ys y)
        (List.append_cancel_left h)
      obtain ⟨hvalues, hxy⟩ := writeItems_prefix xs ys [','] x y (.inr rfl) hrest
      exact ⟨congrArg₂ List.cons hvalue hvalues, hxy⟩

theorem writeFields_prefix : ∀ (xs ys : List (String × Json)) (sep x y : List Char),
    sep = [] ∨ sep = [','] → writeFields floats sep xs ++ x = writeFields floats sep ys ++ y →
      settleFields xs = settleFields ys ∧ x = y
  | [], [], _, x, y, _, h => ⟨rfl, (List.cons.inj h).2⟩
  | [], (k, v) :: ys, sep, x, y, hsep, h => by
      rcases hsep with rfl | rfl
      · exact absurd (List.cons.inj h).1 (by decide)
      · exact absurd (List.cons.inj h).1 (by decide)
  | (k, v) :: xs, [], sep, x, y, hsep, h => by
      rcases hsep with rfl | rfl
      · exact absurd (List.cons.inj h).1 (by decide)
      · exact absurd (List.cons.inj h).1 (by decide)
  | (k, v) :: xs, (l, w) :: ys, sep, x, y, _, h => by
      simp only [writeFields, quote, List.append_assoc, List.cons_append] at h
      have hquoted := (List.cons.inj (List.append_cancel_left h)).2
      obtain ⟨hkey, hrest⟩ := quoteTail_prefix hquoted
      have hvalues := (List.cons.inj hrest).2
      obtain ⟨hvalue, hrest⟩ := write_splits v w _ _ (follows_fields xs x) (follows_fields ys y) hvalues
      obtain ⟨hfields, hxy⟩ := writeFields_prefix xs ys [','] x y (.inr rfl) hrest
      rw [String.toList_inj.mp hkey]
      exact ⟨congrArg₂ List.cons (congrArg (Prod.mk l) hvalue) hfields, hxy⟩

end

end Writing

/-! ## Quotation -/

section Quotation

theorem read_escapeChar (c : Char) : Quotation.read '|' .inside (escapeChar c) = some .inside := by
  by_cases hc : c.toNat ∈ escapedCodes
  · obtain ⟨d, tail, hd, htail, heq⟩ := escapeChar_escaped hc
    have hback : Quotation.next '|' .inside '\\' = some .escaped := by decide
    have hnext : Quotation.next '|' .escaped d = some .inside := next_escaped.mpr ⟨hd, rfl⟩
    rw [heq, read_cons, hback, Option.bind_some, read_cons, hnext]
    exact read_inside htail
  · rw [escapeChar_plain hc]
    refine read_inside fun d hd => ?_
    obtain rfl := List.mem_singleton.mp hd
    exact ⟨by rintro rfl; exact hc (by decide), by rintro rfl; exact hc (by decide)⟩

theorem read_quoteTail (cs : List Char) : Quotation.read '|' .inside (quoteTail cs) = some .outside := by
  unfold quoteTail
  induction cs with
  | nil => decide
  | cons c cs ih =>
    rw [List.flatMap_cons, List.append_assoc, read_of_read (read_escapeChar c)]
    exact ih

theorem quoted_quote (s : String) : Quoted '|' (quote s) := by
  have hopen : Quotation.next '|' .outside '"' = some .inside := by decide
  unfold Quoted quote
  rw [read_cons, hopen]
  exact read_quoteTail s.toList

theorem quoted_number {cs : List Char} (h : ∀ c ∈ cs, isNumberChar c = true) : Quoted '|' cs := by
  refine read_outside fun c hc => ⟨?_, ?_, ?_⟩
  · rintro rfl
    exact absurd (h _ hc) (by decide)
  · rintro rfl
    exact absurd (h _ hc) (by decide)
  · rintro rfl
    exact absurd (h _ hc) (by decide)

theorem quoted_null : Quoted '|' "null".toList := by decide

theorem quoted_true : Quoted '|' "true".toList := by decide

theorem quoted_false : Quoted '|' "false".toList := by decide

theorem quoted_close : Quoted '|' [']'] := by decide

theorem quoted_closeMapping : Quoted '|' ['\x7d'] := by decide

variable (floats : FloatText)

mutual

theorem quoted_write : ∀ v : Json, Quoted '|' (write floats v)
  | .null => quoted_null
  | .bool true => quoted_true
  | .bool false => quoted_false
  | .int i => quoted_number (int_number i)
  | .float (.finite q) => quoted_number (floats.number q)
  | .float (.infinite _) => quoted_null
  | .float .nan => quoted_null
  | .str s => quoted_quote s
  | .arr items =>
    Quoted.append (a := ['[']) (by decide) (quoted_writeItems items [] (by decide))
  | .obj fields =>
    Quoted.append (a := ['\x7b']) (by decide) (quoted_writeFields fields [] (by decide))

theorem quoted_writeItems : ∀ (xs : List Json) (sep : List Char), Quoted '|' sep →
    Quoted '|' (writeItems floats sep xs)
  | [], _, _ => quoted_close
  | v :: xs, _, hsep =>
    hsep.append ((quoted_write v).append (quoted_writeItems xs [','] (by decide)))

theorem quoted_writeFields : ∀ (xs : List (String × Json)) (sep : List Char), Quoted '|' sep →
    Quoted '|' (writeFields floats sep xs)
  | [], _, _ => quoted_closeMapping
  | (k, v) :: xs, _, hsep =>
    hsep.append ((quoted_quote k).append (Quoted.append (a := [':']) (by decide)
      ((quoted_write v).append (quoted_writeFields xs [','] (by decide)))))

end

end Quotation

/-! ## Canonical texts -/

section Dumps

variable {floats : FloatText} {v w : Json}

/-- **One text is of one value**, up to the order of keys. -/
theorem dumps_injective (h : dumps floats v = dumps floats w) : canonical v = canonical w := by
  have htext : write floats (sortKeys v) ++ [] = write floats (sortKeys w) ++ [] :=
    congrArg (· ++ []) (String.ofList_injective h)
  have hend : Follows [] := fun c hc => by cases hc
  exact (write_splits _ _ _ _ hend hend htext).1

mutual

theorem write_settle : ∀ v : Json, write floats (settle v) = write floats v
  | .null | .bool true | .bool false | .int _ | .str _ => rfl
  | .float (.finite _) | .float (.infinite _) | .float .nan => rfl
  | .arr items => congrArg ('[' :: ·) (writeItems_settle items [])
  | .obj fields => congrArg ('\x7b' :: ·) (writeFields_settle fields [])

theorem writeItems_settle : ∀ (xs : List Json) (sep : List Char),
    writeItems floats sep (settleItems xs) = writeItems floats sep xs
  | [], _ => rfl
  | v :: xs, sep => by rw [settleItems, writeItems, writeItems, write_settle v, writeItems_settle xs]

theorem writeFields_settle : ∀ (xs : List (String × Json)) (sep : List Char),
    writeFields floats sep (settleFields xs) = writeFields floats sep xs
  | [], _ => rfl
  | (k, v) :: xs, sep => by rw [settleFields, writeFields, writeFields, write_settle v, writeFields_settle xs]

end

theorem dumps_eq_iff : dumps floats v = dumps floats w ↔ canonical v = canonical w := by
  refine ⟨dumps_injective, fun h => ?_⟩
  unfold dumps
  rw [← write_settle (sortKeys v), ← write_settle (sortKeys w)]
  exact congrArg (fun v => String.ofList (write floats v)) h

theorem quoted_dumps (floats : FloatText) (v : Json) : Quoted '|' (dumps floats v).toList := by
  unfold dumps
  rw [String.toList_ofList]
  exact quoted_write floats (sortKeys v)

end Dumps

end JsonText

end UniversalAgent.Core
