import UniversalAgent.Core.Json
import UniversalAgent.Foundation.Text

/-!
# Domains — WorkspaceSearch

`WorkspaceSearchTool` (`domains/workspace/tools.py`): the lines of the workspace's files that a regular
expression finds, up to a bound. What `rglob` yields, in its order, is given, with what the file system
answers for each entry; so are the regular expressions. The arguments are given as `execute` has read them.

The loop over the entries ends at the first that is not a regular file, where it should pass over it: the
search is exact only if no match that is still wanted lies behind one.
-/

namespace UniversalAgent.Domains.WorkspaceSearch

open UniversalAgent.Core UniversalAgent.Foundation

/-- What `rglob` yields: the parts of a path relative to the workspace, and what the file system answers
for it. -/
structure Entry where
  parts : List String
  isFile : Bool
  /-- `stat().st_size`, unless it raises. -/
  size : Option Nat
  /-- `read_text(encoding="utf-8")`, unless it raises. -/
  text : Option String

structure SearchMatch where
  file : String
  line : Nat
  content : String
deriving DecidableEq

def SearchMatch.toJson (m : SearchMatch) : Json :=
  .obj [("file", .str m.file), ("line", .int m.line), ("content", .str m.content)]

def maxReadChars : Nat := 20000

def searchSkipDirs : List String :=
  [".git", ".venv", "venv", "node_modules", "__pycache__", ".mypy_cache", "dist", "build"]

namespace Entry

def file (e : Entry) : String := "/".intercalate e.parts

def skipped (e : Entry) : Bool := e.parts.any fun part => decide (part ∈ searchSkipDirs)

def readLines (e : Entry) : Option (List String) :=
  match e.size with
  | none => none
  | some size =>
    if size > maxReadChars then none
    else e.text.map fun content => (content.toList.splitOn '\n').map String.ofList

end Entry

/-- `line.strip()[:200]`. -/
def shown (line : String) : String := String.ofList ((Text.strip line).toList.take 200)

section Search

variable (search : String → Bool) (maxResults : Int)

def searchLines (file : String) : Nat → List SearchMatch → List String → List SearchMatch
  | _, found, [] => found
  | i, found, line :: lines =>
    if search line then
      let found := found ++ [⟨file, i, shown line⟩]
      if maxResults ≤ found.length then found else searchLines file (i + 1) found lines
    else searchLines file (i + 1) found lines

def searchEntries : List SearchMatch → List Entry → List SearchMatch
  | found, [] => found
  | found, e :: entries =>
    if !e.isFile || decide (maxResults ≤ found.length) then found
    else if e.skipped then searchEntries found entries
    else match e.readLines with
      | none => searchEntries found entries
      | some lines => searchEntries (searchLines search maxResults e.file 1 found lines) entries

end Search

def answer (pattern glob : String) (found : List SearchMatch) : JsonMapping :=
  [("pattern", .str pattern), ("glob", .str glob), ("match_count", .int found.length),
    ("matches", .arr (found.map SearchMatch.toJson))]

def execute (compile : String → Except String (String → Bool)) (rglob : String → List Entry)
    (pattern glob : String) (maxResults : Int) : JsonMapping :=
  match compile pattern with
  | .error exc =>
    [("pattern", .str pattern), ("error", .str ("invalid regex: " ++ exc)), ("matches", .arr [])]
  | .ok search => answer pattern glob (searchEntries search maxResults [] (rglob glob))

/-! ## All that there is to find -/

section Found

variable (search : String → Bool)

/-- The matching lines of a file, numbered from `i` on. -/
def lineMatches (file : String) (i : Nat) (lines : List String) : List SearchMatch :=
  ((lines.zipIdx i).filter fun line => search line.1).map fun line => ⟨file, line.2, shown line.1⟩

/-- The matching lines of an entry that is searched: a regular file outside the skipped directories, within
the size bound, that decodes. -/
def entryMatches (e : Entry) : List SearchMatch :=
  if e.isFile && !e.skipped then
    match e.readLines with
    | none => []
    | some lines => lineMatches search e.file 1 lines
  else []

/-- The matching lines of all that `rglob` yields. -/
def allMatches (entries : List Entry) : List SearchMatch := entries.flatMap (entryMatches search)

variable {search} {maxResults : Int} {found : List SearchMatch}

theorem lineMatches_cons (file : String) (i : Nat) (line : String) (lines : List String) :
    lineMatches search file i (line :: lines) =
      (if search line then [⟨file, i, shown line⟩] else []) ++ lineMatches search file (i + 1) lines := by
  rw [lineMatches, List.zipIdx_cons, List.filter_cons]
  split
  · rfl
  · rfl

theorem take_full {more : List SearchMatch} (h : maxResults ≤ found.length)
    (hbound : found.length ≤ maxResults.toNat) : (found ++ more).take maxResults.toNat = found := by
  have hlength : maxResults.toNat = found.length := by omega
  rw [hlength, List.take_left]

/-- A bound that was kept earlier makes no difference. -/
theorem take_take_append (n : Nat) (found more : List SearchMatch) :
    (found.take n ++ more).take n = (found ++ more).take n := by
  have hrest : n - (found.take n).length = n - found.length := by
    rw [List.length_take]
    omega
  rw [List.take_append, List.take_append, List.take_take, Nat.min_self, hrest]

theorem searchLines_eq (file : String) (i : Nat) (lines : List String)
    (h : (found.length : Int) < maxResults) :
    searchLines search maxResults file i found lines =
      (found ++ lineMatches search file i lines).take maxResults.toNat := by
  induction lines generalizing i found with
  | nil =>
    have hlength : found.length ≤ maxResults.toNat := by omega
    rw [searchLines, lineMatches, List.zipIdx_nil, List.filter_nil, List.map_nil, List.append_nil,
      List.take_of_length_le hlength]
  | cons line lines ih =>
    rw [searchLines, lineMatches_cons]
    by_cases hline : search line
    · rw [if_pos hline, if_pos hline, ← List.append_assoc]
      have hlength : (found ++ [(⟨file, i, shown line⟩ : SearchMatch)]).length = found.length + 1 := by simp
      by_cases hfull : maxResults ≤ (found ++ [(⟨file, i, shown line⟩ : SearchMatch)]).length
      · have hbound : (found ++ [(⟨file, i, shown line⟩ : SearchMatch)]).length ≤ maxResults.toNat := by
          omega
        rw [take_full hfull hbound]
        exact if_pos hfull
      · rw [← ih (i + 1) (lt_of_not_ge hfull)]
        exact if_neg hfull
    · rw [if_neg hline, if_neg hline, List.nil_append]
      exact ih (i + 1) h

/-- Up to the first entry that is not a regular file, the search is exact. -/
theorem searchEntries_eq (entries : List Entry) (h : found.length ≤ maxResults.toNat) :
    searchEntries search maxResults found entries =
      (found ++ allMatches search (entries.takeWhile Entry.isFile)).take maxResults.toNat := by
  induction entries generalizing found with
  | nil =>
    rw [searchEntries, List.takeWhile_nil, allMatches, List.flatMap_nil, List.append_nil,
      List.take_of_length_le h]
  | cons e entries ih =>
    rw [searchEntries]
    by_cases hfile : e.isFile
    · rw [List.takeWhile_cons_of_pos hfile, allMatches, List.flatMap_cons, ← allMatches, hfile, Bool.not_true,
        Bool.false_or]
      by_cases hfull : maxResults ≤ found.length
      · rw [if_pos (decide_eq_true hfull), take_full hfull h]
      · rw [if_neg (by simpa using hfull), entryMatches, hfile, Bool.true_and]
        by_cases hskipped : e.skipped
        · rw [if_pos hskipped, hskipped, Bool.not_true, if_neg Bool.false_ne_true, List.nil_append]
          exact ih h
        · rw [if_neg hskipped, Bool.eq_false_of_not_eq_true hskipped, Bool.not_false, if_pos rfl]
          cases e.readLines with
          | none => exact ih h
          | some lines =>
            dsimp only
            rw [searchLines_eq e.file 1 lines (lt_of_not_ge hfull), ih (List.length_take_le _ _),
              take_take_append, List.append_assoc]
    · rw [List.takeWhile_cons_of_neg hfile, allMatches, List.flatMap_nil, List.append_nil,
        Bool.eq_false_of_not_eq_true hfile, List.take_of_length_le h]
      rfl

/-- No match that is still wanted lies behind an entry that is not a regular file. -/
def NothingBehind (search : String → Bool) (maxResults : Int) (entries : List Entry) : Prop :=
  maxResults.toNat ≤ (allMatches search (entries.takeWhile Entry.isFile)).length ∨
    allMatches search (entries.dropWhile Entry.isFile) = []

instance (entries : List Entry) : Decidable (NothingBehind search maxResults entries) :=
  inferInstanceAs (Decidable (_ ∨ _))

theorem allMatches_split (entries : List Entry) :
    allMatches search entries = allMatches search (entries.takeWhile Entry.isFile) ++
      allMatches search (entries.dropWhile Entry.isFile) := by
  rw [allMatches, allMatches, allMatches, ← List.flatMap_append, List.takeWhile_append_dropWhile]

/-- A bounded part of a list and of a longer one are the same if the rest is empty or is not reached. -/
theorem take_eq_take_append_iff {n : Nat} {found more : List SearchMatch} :
    found.take n = (found ++ more).take n ↔ n ≤ found.length ∨ more = [] := by
  constructor
  · intro h
    have hlength := congrArg List.length h
    rw [List.length_take, List.length_take, List.length_append] at hlength
    rw [← List.length_eq_zero_iff]
    omega
  · rintro (h | rfl)
    · rw [List.take_append_of_le_length h]
    · rw [List.append_nil]

theorem toJson_injective : Function.Injective SearchMatch.toJson := by
  intro a b h
  simp only [SearchMatch.toJson, Json.obj.injEq, List.cons.injEq, Prod.mk.injEq, Json.str.injEq,
    Json.int.injEq, Nat.cast_inj, true_and, and_true] at h
  obtain ⟨hfile, hline, hcontent⟩ := h
  cases a
  cases b
  cases hfile
  cases hline
  cases hcontent
  rfl

theorem answer_injective {pattern glob : String} {found found' : List SearchMatch} :
    answer pattern glob found = answer pattern glob found' ↔ found = found' := by
  constructor
  · intro h
    simp only [answer, List.cons.injEq, Prod.mk.injEq, Json.arr.injEq, true_and, and_true] at h
    exact List.map_injective_iff.mpr toJson_injective h.2
  · exact congrArg _

end Found

def containsText (text line : String) : Bool := line.toList.tails.any text.toList.isPrefixOf

def note (name text : String) : Entry := ⟨[name], true, some text.length, some text⟩

def directory (name : String) : Entry := ⟨[name], false, some 4096, none⟩

end UniversalAgent.Domains.WorkspaceSearch
