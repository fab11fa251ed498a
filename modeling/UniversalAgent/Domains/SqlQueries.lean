import UniversalAgent.Domains.Policies
import UniversalAgent.Foundation.SqlTokens
import UniversalAgent.Foundation.Stripping

/-!
# Domains — SqlQueries

What the SQL domain (`domains/sqldb`) lets through: the policies it registers, the read-only policy
that it does not register, and the validation of its SQLite backend.

Lower case is that of ASCII: no other letter's lower case is a letter of the words compared.
-/

namespace UniversalAgent.Domains

open UniversalAgent.Core UniversalAgent.Foundation

/-! ## Text -/

/-- `s.lower()`. -/
def lower (s : String) : String := String.ofList (s.toList.map Char.toLower)

/-- `s.split()[0]`, empty for a blank text. -/
def firstWord (s : String) : String :=
  String.ofList ((s.toList.dropWhile Text.isSpace).takeWhile fun c => !Text.isSpace c)

/-- `s.rstrip(";")`. -/
def rstripSemicolons (s : String) : String :=
  String.ofList (s.toList.reverse.dropWhile fun c => c = ';').reverse

/-! ## The backend -/

def maxRows : Int := 200

def forbiddenPrefixes : List String :=
  ["insert", "update", "delete", "drop", "create", "alter", "attach", "detach", "pragma", "vacuum",
    "reindex", "replace", "with"]

/-- What `_validate_select` looks at. -/
def stripped (sql : String) : String := Text.strip (rstripSemicolons (Text.strip sql))

def validateSelect (sql : String) : Except String String :=
  if stripped sql = "" then .error "sql query is empty"
  else if forbiddenPrefixes.any fun p => p.toList.isPrefixOf (lower (stripped sql)).toList then
    .error ("only SELECT statements are allowed, got: " ++ firstWord (lower (stripped sql)))
  else if ';' ∈ (stripped sql).toList then .error "multiple statements are not allowed"
  else .ok (stripped sql)

/-- `_clamp_limit`, of an integer. -/
def clampLimit : Option Int → Except String Int
  | none => .ok maxRows
  | some limit => if limit ≤ 0 then .error "limit must be positive" else .ok (min limit maxRows)

/-- `query_rows`: the statement that the database executes, and how many rows are fetched. -/
def queryRows (sql : String) (limit : Option Int) : Except String (String × Int) :=
  match validateSelect sql with
  | .error e => .error e
  | .ok statement =>
    match clampLimit limit with
    | .error e => .error e
    | .ok rows => .ok (statement, rows)

/-! ## The policies -/

/-- `SqlReadOnlyPolicy.evaluate`. -/
def sqlReadOnlyPolicy : Policy := fun context =>
  if context.capability.name ≠ "query_rows" then none
  else
    let lowered := match context.arguments.lookup "sql" with
      | some (.str sql) => lower (Text.strip sql)
      | _ => ""
    if firstWord lowered ≠ "" ∧ firstWord lowered ≠ "select" then
      some ⟨.deny, "sqldb is read-only: " ++ firstWord lowered ++ " statements are not allowed",
        "sqldb-read-only"⟩
    else none

/-- `SqldbDomain.policies`. -/
def sqldbPolicies : List Policy :=
  [PolicyRule.evaluate ⟨"sqldb-read-only", .allow, "read-only SELECT queries allowed", [],
    [.observation], []⟩]

/-- `SqldbDomain.capabilities`, the one that runs queries. -/
def queryRowsCapability : CapabilityDefinition := ⟨"query_rows", .observation⟩

def queryContext (sql : String) (limit : Option Int) (target : Option String)
    (environment : JsonMapping) (confirmed : Bool) (criteria : List SuccessCriterion) :
    PolicyContext where
  capability := queryRowsCapability
  risk := .low
  target := target
  arguments := ("sql", .str sql) :: (limit.map fun l => ("limit", Json.int l)).toList
  environment := environment
  confirmed := confirmed
  goalSuccessCriteria := criteria

/-- The statement that the domain passes to the database, if it passes one. -/
def executed (context : PolicyContext) (sql : String) (limit : Option Int) : Option String :=
  if (check sqldbPolicies context).effect = .allow then (queryRows sql limit).toOption.map Prod.fst
  else none

theorem check_sqldb (context : PolicyContext) (h : context.capability = queryRowsCapability) :
    (check sqldbPolicies context).effect = .allow := by
  have hrule : PolicyRule.evaluate ⟨"sqldb-read-only", .allow, "read-only SELECT queries allowed",
      [], [.observation], []⟩ context
        = some ⟨.allow, "read-only SELECT queries allowed", "sqldb-read-only"⟩ := by
    simp [PolicyRule.evaluate, h, queryRowsCapability]
  simp [check, sqldbPolicies, hrule]

/-! ## Admission -/

/-- The domain executes the text exactly if it is a single SELECT, and what the read-only policy
denies is denied. -/
def SelectsOnly (sql : String) : Prop :=
  ∀ (limit : Option Int) target environment confirmed criteria, (∀ l ∈ limit, 1 ≤ l ∧ l ≤ maxRows) →
    ((executed (queryContext sql limit target environment confirmed criteria) sql limit).isSome ↔
      Sql.singleSelect sql = true) ∧
    ∀ denied, sqlReadOnlyPolicy (queryContext sql limit target environment confirmed criteria)
        = some denied →
      (check sqldbPolicies
        (queryContext sql limit target environment confirmed criteria)).effect = .deny

/-- The text is blank, or its first word is `select` and a semicolon is left in it exactly if it is
not a single SELECT. -/
def Admissible (sql : String) : Prop :=
  Text.isBlank sql = true ∨ firstWord (lower (Text.strip sql)) = "select" ∧
    (';' ∈ (stripped sql).toList ↔ Sql.singleSelect sql = false)

/-! ## Stripping -/

theorem toLower_cases (c : Char) :
    c.toLower = c ∨ 65 ≤ c.toNat ∧ c.toNat ≤ 90 ∧ c.toLower.toNat = c.toNat + 32 := by
  unfold Char.toLower
  split
  · next h =>
      have hlo : 65 ≤ c.val.toNat := h.1
      have hhi : c.val.toNat ≤ 90 := h.2
      refine .inr ⟨hlo, hhi, ?_⟩
      show (c.val + ('a'.val - 'A'.val)).toNat = c.val.toNat + 32
      have hoffset : ('a'.val - 'A'.val).toNat = 32 := rfl
      rw [UInt32.toNat_add, hoffset]
      omega
  · exact .inl rfl

theorem isSpace_toLower (c : Char) : Text.isSpace c.toLower = Text.isSpace c := by
  rcases toLower_cases c with heq | ⟨hlo, hhi, hlower⟩
  · rw [heq]
  · have hletter : ∀ n ∈ Text.spaceCodes, n < 65 ∨ 122 < n := by decide
    have hneither : ∀ d : Char, 65 ≤ d.toNat → d.toNat ≤ 122 → Text.isSpace d = false := by
      intro d hd hd'
      rw [Text.isSpace, Bool.eq_false_iff, ne_eq, List.contains_iff_mem]
      intro hmem
      have hcode := hletter _ hmem
      omega
    rw [hneither c hlo (by omega), hneither c.toLower (by omega) (by omega)]

theorem rstripSemicolons_split (s : String) :
    ∃ r, s.toList = (rstripSemicolons s).toList ++ r ∧ ∀ c ∈ r, c = ';' := by
  obtain ⟨r, hr, hsemicolons⟩ := Text.dropEnd_split (fun c => c = ';') s.toList
  refine ⟨r, ?_, fun c hc => of_decide_eq_true (hsemicolons c hc)⟩
  rw [rstripSemicolons, String.toList_ofList]
  exact hr

/-! ## Blank texts -/

variable {sql : String}

theorem stripped_of_blank (h : Text.isBlank sql = true) : stripped sql = "" := by
  unfold stripped
  rw [(Text.isBlank_iff sql).mp h]
  rfl

theorem singleSelect_of_blank (h : Text.isBlank sql = true) : Sql.singleSelect sql = false := by
  have hselect : Sql.isSelect (Sql.tokens sql) = false := by
    unfold Sql.isSelect
    split
    · next w ts hts =>
        rw [decide_eq_false_iff_not]
        intro hw
        have hs : 's' ∈ w.map Char.toLower := hw ▸ List.mem_cons_self
        obtain ⟨c, hc, hlower⟩ := List.mem_map.mp hs
        have hmem : c ∈ sql.toList :=
          Sql.word_subset sql.toList.length (show _ ∈ Sql.tokens sql from hts ▸ List.mem_cons_self) hc
        have hspace := isSpace_toLower c
        rw [hlower, List.all_eq_true.mp h c hmem] at hspace
        exact absurd hspace (by decide)
    · rfl
  rw [Sql.singleSelect, hselect]
  rfl

/-! ## Texts that begin with select -/

/-- The first word of a text that is not blank is not empty. -/
theorem firstWord_of_filled (h : Text.isBlank sql = false) :
    ∃ c cs, (Text.strip sql).toList = c :: cs ∧ Text.isSpace c = false ∧
      ∃ rest, (firstWord (lower (Text.strip sql))).toList = c.toLower :: rest := by
  obtain ⟨c, cs, hstrip, hc⟩ := Text.strip_begins h
  have hlower : Text.isSpace c.toLower = false := (isSpace_toLower c).trans hc
  refine ⟨c, cs, hstrip, hc, (cs.map Char.toLower).takeWhile fun d => !Text.isSpace d, ?_⟩
  rw [firstWord, lower, hstrip, String.toList_ofList, String.toList_ofList, List.map_cons,
    List.dropWhile_cons_of_neg (by simp [hlower]), List.takeWhile_cons_of_pos (by simp [hlower])]

theorem filled_of_select (h : firstWord (lower (Text.strip sql)) = "select") : Text.isBlank sql ≠ true := by
  intro hblank
  rw [(Text.isBlank_iff sql).mp hblank] at h
  exact absurd h (by decide)

/-- Where the first word is `select`, only semicolons can keep the text from the database. -/
theorem validateSelect_of_select
    (h : firstWord (lower (Text.strip sql)) = "select") :
    (∃ statement, validateSelect sql = .ok statement) ↔ ';' ∉ (stripped sql).toList := by
  have hfilled : Text.isBlank sql = false := Bool.eq_false_iff.mpr (filled_of_select h)
  obtain ⟨c, cs, hstrip, hc, rest, hfirst⟩ := firstWord_of_filled hfilled
  have hs : c.toLower = 's' := by
    rw [h] at hfirst
    exact (List.cons.inj hfirst).1.symm
  have hsemicolon : (decide (c = ';')) = false := by
    rw [decide_eq_false_iff_not]
    rintro rfl
    exact absurd hs (by decide)
  obtain ⟨rest', hrest'⟩ := Text.dropEnd_cons (p := fun d => decide (d = ';')) hsemicolon cs
  have hrstrip : (rstripSemicolons (Text.strip sql)).toList = c :: rest' := by
    rw [rstripSemicolons, String.toList_ofList, hstrip]
    exact hrest'
  obtain ⟨rest'', hstripped⟩ := Text.strip_cons hrstrip hc
  have hne : stripped sql ≠ "" := by
    intro heq
    rw [← String.toList_inj] at heq
    exact absurd (hstripped.symm.trans heq) (by simp)
  have hforbidden : (forbiddenPrefixes.any fun p =>
      p.toList.isPrefixOf (lower (stripped sql)).toList) = false := by
    have hlower : (lower (stripped sql)).toList = 's' :: rest''.map Char.toLower := by
      rw [lower, String.toList_ofList, stripped, hstripped, List.map_cons, hs]
    rw [hlower]
    simp [forbiddenPrefixes, List.isPrefixOf]
  unfold validateSelect
  rw [if_neg hne, hforbidden]
  by_cases hleft : ';' ∈ (stripped sql).toList
  · simp [hleft]
  · simp [hleft]

/-! ## The law -/

theorem executed_isSome {context : PolicyContext} (hcontext : context.capability = queryRowsCapability)
    (sql : String) {limit : Option Int} (hlimit : ∀ l ∈ limit, 1 ≤ l ∧ l ≤ maxRows) :
    (executed context sql limit).isSome ↔ ∃ statement, validateSelect sql = .ok statement := by
  have hclamp : ∃ rows, clampLimit limit = .ok rows := by
    unfold clampLimit
    cases limit with
    | none => exact ⟨_, rfl⟩
    | some l =>
      have hpos := (hlimit l rfl).1
      exact ⟨min l maxRows, if_neg (by omega)⟩
  obtain ⟨rows, hrows⟩ := hclamp
  unfold executed queryRows
  rw [if_pos (check_sqldb context hcontext), hrows]
  cases validateSelect sql with
  | error e => simp [Except.toOption]
  | ok statement => simp [Except.toOption]

/-- The read-only policy denies exactly the texts whose first word is another. -/
theorem sqlReadOnlyPolicy_iff (sql : String) (limit : Option Int) (target : Option String)
    (environment : JsonMapping) (confirmed : Bool) (criteria : List SuccessCriterion) :
    (∃ denied, sqlReadOnlyPolicy (queryContext sql limit target environment confirmed criteria)
        = some denied) ↔
      firstWord (lower (Text.strip sql)) ≠ "" ∧ firstWord (lower (Text.strip sql)) ≠ "select" := by
  unfold sqlReadOnlyPolicy
  have hlookup : (queryContext sql limit target environment confirmed criteria).arguments.lookup
      "sql" = some (.str sql) := rfl
  have hname : (queryContext sql limit target environment confirmed criteria).capability.name
      = "query_rows" := rfl
  rw [hname, hlookup]
  simp only [ne_eq, not_true_eq_false, if_false]
  split
  · next h => exact iff_of_true ⟨_, rfl⟩ h
  · next h => exact iff_of_false (by simp) h

/-- Where no semicolon is left, only white space and semicolons follow one. -/
theorem trailing_of_stripped
    (hspaces : ∀ c ∈ sql.toList, Text.isSpace c = true → Sql.isSpace c = true)
    (hleft : ';' ∉ (stripped sql).toList) : Sql.Trailing sql.toList := by
  obtain ⟨l, r, hsql, hl, hr⟩ := Text.strip_split sql
  obtain ⟨semicolons, hstrip, hsemicolons⟩ := rstripSemicolons_split (Text.strip sql)
  obtain ⟨l', r', hrstrip, hl', hr'⟩ := Text.strip_split (rstripSemicolons (Text.strip sql))
  have hnone : ∀ cs : List Char, (∀ c ∈ cs, Text.isSpace c = true) → ';' ∉ cs :=
    fun cs hcs hmem => absurd (hcs _ hmem) (by decide)
  have hsplit : sql.toList = (l ++ l' ++ (stripped sql).toList) ++ (r' ++ semicolons ++ r) := by
    rw [hsql, hstrip, hrstrip]
    simp only [stripped, List.append_assoc]
  have hbefore : ';' ∉ l ++ l' ++ (stripped sql).toList := by
    simp only [List.mem_append, not_or]
    exact ⟨⟨hnone l hl, hnone l' hl'⟩, hleft⟩
  have hafter : ∀ c ∈ r' ++ semicolons ++ r, c = ';' ∨ Sql.isSpace c = true := by
    intro c hc
    have hmem : c ∈ sql.toList := hsplit ▸ List.mem_append_right _ hc
    simp only [List.mem_append] at hc
    rcases hc with (hc | hc) | hc
    · exact .inr (hspaces c hmem (hr' c hc))
    · exact .inl (hsemicolons c hc)
    · exact .inr (hspaces c hmem (hr c hc))
  intro before after heq
  rw [hsplit] at heq
  rcases List.append_eq_append_iff.mp heq with ⟨mid, -, htail⟩ | ⟨mid, hhead, hrest⟩
  · exact fun c hc => hafter c (htail ▸ List.mem_append_right _ (List.mem_cons_of_mem _ hc))
  · cases mid with
    | nil =>
      rw [List.nil_append] at hrest
      exact fun c hc => hafter c (hrest ▸ List.mem_cons_of_mem _ hc)
    | cons d mid =>
      obtain ⟨rfl, -⟩ := List.cons.inj hrest
      exact absurd (hhead ▸ List.mem_append_right _ List.mem_cons_self) hbefore

end UniversalAgent.Domains
