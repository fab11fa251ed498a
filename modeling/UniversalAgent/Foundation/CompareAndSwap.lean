import UniversalAgent.Foundation.Machine

/-!
# Foundation — CompareAndSwap

Documents under keys, each with a version that a write is checked against. A client holds objects:
a load or a creation gives it one, with the version the document has; a write is made from the
object and leaves it with a version again, whether the write is accepted or not.

`Lawful` says what a store must do for one call. `Lawful.swaps` is what follows for every run: an
accepted write raises the version its client had seen by one, and its client had seen the latest
write; a write from another version changes nothing.
-/

namespace UniversalAgent.Foundation

universe u v

/-- The end of a call that writes: what it raised, the store after it, and the version that the
caller's object is left with. -/
structure WriteEnd (σ : Type u) (ε : Type v) where
  raised : Option ε
  store : σ
  version : Int

/-- A store of versioned documents `δ` under keys `κ`; a write may bring an event `η` with it. -/
structure VersionedStore (κ δ η ε : Type) where
  Content : Type
  empty : Content
  key : δ → κ
  stored : Content → κ → Option Int
  load : Content → κ → Except ε (δ × Int) × Content
  create : Content → δ → WriteEnd Content ε
  write : Content → δ → Option η → Int → WriteEnd Content ε

/-- A call of the client `ι`. -/
inductive ClientCall (ι κ δ η : Type) where
  | load (client : ι) (key : κ)
  | create (client : ι) (document : δ)
  | write (client : ι) (document : δ) (event : Option η)

inductive ClientAnswer (δ ε : Type) where
  | loaded (document : δ) (version : Int)
  | done
  | raised (error : ε)
  | nothingHeld
deriving DecidableEq

namespace VersionedStore

variable {κ δ η ε ι : Type} [DecidableEq κ] [DecidableEq ι]

structure Clients (S : VersionedStore κ δ η ε) (ι : Type) where
  content : S.Content
  held : ι → κ → Option Int

variable (S : VersionedStore κ δ η ε)

def setHeld (held : ι → κ → Option Int) (c : ι) (k : κ) (version : Int) : ι → κ → Option Int :=
  fun c' k' => if c' = c ∧ k' = k then some version else held c' k'

/-- One call. A creation that is refused gives the client nothing to write from. -/
def step (s : S.Clients ι) : ClientCall ι κ δ η → ClientAnswer δ ε × S.Clients ι
  | .load c k =>
    match S.load s.content k with
    | (.ok (document, version), content) =>
      (.loaded document version, ⟨content, setHeld s.held c k version⟩)
    | (.error e, content) => (.raised e, { s with content := content })
  | .create c document =>
    let r := S.create s.content document
    match r.raised with
    | none => (.done, ⟨r.store, setHeld s.held c (S.key document) r.version⟩)
    | some e => (.raised e, { s with content := r.store })
  | .write c document event =>
    match s.held c (S.key document) with
    | none => (.nothingHeld, s)
    | some version =>
      let r := S.write s.content document event version
      let held := setHeld s.held c (S.key document) r.version
      match r.raised with
      | none => (.done, ⟨r.store, held⟩)
      | some e => (.raised e, ⟨r.store, held⟩)

def clients (ι : Type) [DecidableEq ι] :
    Machine (S.Clients ι) (ClientCall ι κ δ η) (ClientAnswer δ ε) where
  init := ⟨S.empty, fun _ _ => none⟩
  step := S.step

/-! ## What a client has seen -/

/-- The version that a client has seen of a document, told from what it was answered: the version
it loaded or created last, and one more for every write of its own since. -/
def seenAfter (c : ι) (k : κ) (seen : Option Int) :
    ClientCall ι κ δ η × ClientAnswer δ ε → Option Int
  | (.load c' k', .loaded _ version) => if c' = c ∧ k' = k then some version else seen
  | (.create c' document, .done) => if c' = c ∧ S.key document = k then some 0 else seen
  | (.write c' document _, .done) =>
    if c' = c ∧ S.key document = k then seen.map (· + 1) else seen
  | _ => seen

def seen (h : List (ClientCall ι κ δ η × ClientAnswer δ ε)) (c : ι) (k : κ) : Option Int :=
  h.foldl (S.seenAfter c k) none

/-- Whether a client has seen the latest write of a document: it has loaded the document since, or
the write was its own. -/
def upToDateAfter (c : ι) (k : κ) (upToDate : Bool) :
    ClientCall ι κ δ η × ClientAnswer δ ε → Bool
  | (.load c' k', .loaded _ _) => if c' = c ∧ k' = k then true else upToDate
  | (.create c' document, .done) | (.write c' document _, .done) =>
    if S.key document = k then decide (c' = c) else upToDate
  | _ => upToDate

def upToDate (h : List (ClientCall ι κ δ η × ClientAnswer δ ε)) (c : ι) (k : κ) : Bool :=
  h.foldl (S.upToDateAfter c k) false

variable {S}

theorem seen_snoc (h : List (ClientCall ι κ δ η × ClientAnswer δ ε)) (x) (c : ι) (k : κ) :
    S.seen (h ++ [x]) c k = S.seenAfter c k (S.seen h c k) x := by
  simp [seen, List.foldl_append]

theorem upToDate_snoc (h : List (ClientCall ι κ δ η × ClientAnswer δ ε)) (x) (c : ι) (k : κ) :
    S.upToDate (h ++ [x]) c k = S.upToDateAfter c k (S.upToDate h c k) x := by
  simp [upToDate, List.foldl_append]

/-! ## Lawful stores -/

/-- What a store must do for a single call, from a content in `Inv`, for the writes that are
`good`. -/
structure Lawful (S : VersionedStore κ δ η ε) (Inv : S.Content → Prop)
    (good : S.Content → δ → Option η → Int → Prop) : Prop where
  empty : Inv S.empty
  nothing : ∀ k, S.stored S.empty k = none
  load : ∀ s k, Inv s → (S.load s k).2 = s ∧
    ∀ document version, (S.load s k).1 = .ok (document, version) → S.stored s k = some version
  create : ∀ s document, Inv s → Inv (S.create s document).store ∧
    match (S.create s document).raised with
    | none => S.stored s (S.key document) = none ∧ (S.create s document).version = 0 ∧
        S.stored (S.create s document).store
          = Function.update (S.stored s) (S.key document) (some 0)
    | some _ => (S.create s document).store = s
  write : ∀ s document event version, Inv s → good s document event version →
    Inv (S.write s document event version).store ∧
    match (S.write s document event version).raised with
    | none => S.stored s (S.key document) = some version ∧
        (S.write s document event version).version = version + 1 ∧
        S.stored (S.write s document event version).store
          = Function.update (S.stored s) (S.key document) (some (version + 1))
    | some _ => (S.write s document event version).store = s ∧
        (S.write s document event version).version = version

def GoodCall (good : S.Content → δ → Option η → Int → Prop) (s : S.Clients ι) :
    ClientCall ι κ δ η → Prop
  | .load _ _ | .create _ _ => True
  | .write c document event =>
    ∀ version ∈ s.held c (S.key document), good s.content document event version

instance (good : S.Content → δ → Option η → Int → Prop)
    [∀ content document event version, Decidable (good content document event version)]
    (s : S.Clients ι) : ∀ call : ClientCall ι κ δ η, Decidable (GoodCall good s call)
  | .load _ _ | .create _ _ => .isTrue trivial
  | .write c document event =>
    inferInstanceAs (Decidable (∀ version ∈ s.held c (S.key document),
      good s.content document event version))

/-- What the clients hold is what they have seen; nobody has seen more than there is, and who has
seen all there is has seen the latest write. -/
structure Coherently (S : VersionedStore κ δ η ε) (Inv : S.Content → Prop)
    (h : List (ClientCall ι κ δ η × ClientAnswer δ ε)) (s : S.Clients ι) : Prop where
  inv : Inv s.content
  held : ∀ c k, s.held c k = S.seen h c k
  known : ∀ c k version, S.seen h c k = some version →
    ∃ latest, S.stored s.content k = some latest ∧ version ≤ latest ∧
      (version = latest → S.upToDate h c k = true)

variable {Inv : S.Content → Prop} {good : S.Content → δ → Option η → Int → Prop}
variable {h : List (ClientCall ι κ δ η × ClientAnswer δ ε)} {s : S.Clients ι}

/-- A call that was refused is as if it had not been made. -/
theorem Coherently.refused (hi : Coherently S Inv h s) (call : ClientCall ι κ δ η) (e : ε) :
    Coherently S Inv (h ++ [(call, .raised e)]) s := by
  have hseen : ∀ c k, S.seen (h ++ [(call, .raised e)]) c k = S.seen h c k := by
    intro c k
    rw [seen_snoc]
    cases call <;> rfl
  have hlatest : ∀ c k, S.upToDate (h ++ [(call, .raised e)]) c k = S.upToDate h c k := by
    intro c k
    rw [upToDate_snoc]
    cases call <;> rfl
  exact
    { inv := hi.inv
      held := fun c k => (hi.held c k).trans (hseen c k).symm
      known := fun c k version hv => by
        rw [hlatest c k]
        exact hi.known c k version (hseen c k ▸ hv) }

theorem Coherently.nothingHeld (hi : Coherently S Inv h s) (c : ι) (document : δ)
    (event : Option η) : Coherently S Inv (h ++ [(.write c document event, .nothingHeld)]) s := by
  refine ⟨hi.inv, fun c' k' => ?_, fun c' k' version hv => ?_⟩
  · rw [seen_snoc]
    exact hi.held c' k'
  · rw [seen_snoc] at hv
    rw [upToDate_snoc]
    exact hi.known c' k' version hv

theorem Coherently.loaded (hi : Coherently S Inv h s) (c : ι) (k : κ) (document : δ)
    {version : Int} (hstored : S.stored s.content k = some version) :
    Coherently S Inv (h ++ [(.load c k, .loaded document version)])
      { s with held := setHeld s.held c k version } := by
  refine ⟨hi.inv, fun c' k' => ?_, fun c' k' seen hv => ?_⟩
  · rw [seen_snoc]
    simp only [setHeld, seenAfter, hi.held c' k', eq_comm (a := c') (b := c),
      eq_comm (a := k') (b := k)]
  · rw [seen_snoc] at hv
    rw [upToDate_snoc]
    simp only [seenAfter, upToDateAfter] at hv ⊢
    split
    · rename_i hsame
      rw [if_pos hsame, Option.some.injEq] at hv
      refine ⟨version, hsame.2 ▸ hstored, le_of_eq hv.symm, fun _ => rfl⟩
    · rename_i hother
      rw [if_neg hother] at hv
      exact hi.known c' k' seen hv

/-- The client has written the document: it holds the version that is stored now, and every other
client that has seen the document has seen less. -/
theorem Coherently.written (hi : Coherently S Inv h s) {x} {c : ι} {k : κ} {version : Int}
    {content : S.Content} (hinv : Inv content)
    (hstored : S.stored content = Function.update (S.stored s.content) k (some version))
    (hless : ∀ c' seen, S.seen h c' k = some seen → seen < version)
    (hseen : ∀ c' k', S.seenAfter c' k' (S.seen h c' k') x
      = if c = c' ∧ k = k' then some version else S.seen h c' k')
    (hlatest : ∀ c' k' b, S.upToDateAfter c' k' b x = if k = k' then decide (c = c') else b) :
    Coherently S Inv (h ++ [x]) ⟨content, setHeld s.held c k version⟩ := by
  refine ⟨hinv, fun c' k' => ?_, fun c' k' seen hv => ?_⟩
  · rw [seen_snoc, hseen]
    simp only [setHeld, hi.held c' k', eq_comm (a := c') (b := c), eq_comm (a := k') (b := k)]
  · rw [seen_snoc, hseen] at hv
    rw [upToDate_snoc, hlatest, hstored]
    by_cases hk : k = k'
    · subst hk
      rw [Function.update_self, if_pos rfl]
      refine ⟨version, rfl, ?_⟩
      by_cases hc : c = c'
      · rw [if_pos ⟨hc, rfl⟩, Option.some.injEq] at hv
        exact ⟨le_of_eq hv.symm, fun _ => decide_eq_true hc⟩
      · rw [if_neg (fun h => hc h.1)] at hv
        have hlt := hless c' seen hv
        exact ⟨le_of_lt hlt, fun heq => absurd heq (ne_of_lt hlt)⟩
    · rw [Function.update_of_ne (Ne.symm hk), if_neg hk]
      rw [if_neg (fun h => hk h.2)] at hv
      exact hi.known c' k' seen hv

theorem Coherently.step (hl : Lawful S Inv good) (hi : Coherently S Inv h s)
    {call : ClientCall ι κ δ η} (hg : GoodCall good s call) :
    Coherently S Inv (h ++ [(call, (S.step s call).1)]) (S.step s call).2 := by
  cases call with
  | load c k =>
    obtain ⟨hsame, hload⟩ := hl.load s.content k hi.inv
    simp only [VersionedStore.step]
    rcases hr : S.load s.content k with ⟨_ | ⟨document, version⟩, content⟩
    · obtain rfl : content = s.content := by simpa [hr] using hsame
      exact hi.refused _ _
    · obtain rfl : content = s.content := by simpa [hr] using hsame
      exact hi.loaded c k document (hload document version (by rw [hr]))
  | create c document =>
    obtain ⟨hinv, hcreate⟩ := hl.create s.content document hi.inv
    simp only [VersionedStore.step]
    cases hr : (S.create s.content document).raised with
    | some e =>
      rw [hr] at hcreate
      have hsame : (S.create s.content document).store = s.content := hcreate
      rw [hsame]
      exact hi.refused _ _
    | none =>
      rw [hr] at hcreate
      obtain ⟨hnone, hversion, hstored⟩ := hcreate
      rw [hversion]
      refine hi.written hinv hstored ?_ (fun _ _ => rfl) (fun _ _ _ => rfl)
      intro c' seen hs
      obtain ⟨latest, hlatest, -⟩ := hi.known c' _ seen hs
      rw [hnone] at hlatest
      cases hlatest
  | write c document event =>
    simp only [VersionedStore.step]
    cases hheld : s.held c (S.key document) with
    | none => exact hi.nothingHeld c document event
    | some version =>
      obtain ⟨hinv, hwrite⟩ := hl.write s.content document event version hi.inv
        (hg version hheld)
      have hseen : S.seen h c (S.key document) = some version := hi.held c _ ▸ hheld
      cases hr : (S.write s.content document event version).raised with
      | some e =>
        simp only [hr] at hwrite ⊢
        rw [hwrite.1, hwrite.2]
        have hsame : setHeld s.held c (S.key document) version = s.held := by
          funext c' k'
          unfold setHeld
          split
          · rename_i hck
            rw [hck.1, hck.2, hheld]
          · rfl
        rw [hsame]
        exact hi.refused _ _
      | none =>
        simp only [hr] at hwrite ⊢
        obtain ⟨hbefore, hversion, hstored⟩ := hwrite
        rw [hversion]
        refine hi.written hinv hstored ?_ ?_ (fun _ _ _ => rfl)
        · intro c' seen hs
          obtain ⟨latest, hlatest, hle, -⟩ := hi.known c' _ seen hs
          rw [hbefore, Option.some.injEq] at hlatest
          omega
        · intro c' k'
          simp only [seenAfter]
          by_cases hsame : c = c' ∧ S.key document = k'
          · obtain ⟨rfl, rfl⟩ := hsame
            simp [hseen]
          · rw [if_neg hsame, if_neg hsame]

/-! ## Runs -/

/-- What the write of a client does after the history `h`. One that is accepted raises the stored
version by one above the version that the client has seen, which is that of the latest write; one
from another version than the stored one is refused, and nothing is changed. -/
structure Swapped (S : VersionedStore κ δ η ε) (h : List (ClientCall ι κ δ η × ClientAnswer δ ε))
    (s : S.Clients ι) (c : ι) (document : δ) (event : Option η) : Prop where
  raised : (S.step s (.write c document event)).1 = .done →
    ∃ version, S.seen h c (S.key document) = some version ∧
      S.stored s.content (S.key document) = some version ∧
      S.stored (S.step s (.write c document event)).2.content (S.key document)
        = some (version + 1)
  latest : (S.step s (.write c document event)).1 = .done →
    S.upToDate h c (S.key document) = true
  stale : ∀ version, S.seen h c (S.key document) = some version →
    S.stored s.content (S.key document) ≠ some version →
    (∃ e, (S.step s (.write c document event)).1 = .raised e) ∧
      (S.step s (.write c document event)).2.content = s.content

theorem Coherently.swapped (hl : Lawful S Inv good) (hi : Coherently S Inv h s) {c : ι}
    {document : δ} {event : Option η} (hg : GoodCall good s (.write c document event)) :
    Swapped S h s c document event := by
  cases hheld : s.held c (S.key document) with
  | none =>
    have hunseen : S.seen h c (S.key document) = none := hi.held c _ ▸ hheld
    have hstep : (S.step s (.write c document event)).1 = .nothingHeld := by
      simp only [VersionedStore.step, hheld]
    refine ⟨fun hd => ?_, fun hd => ?_, fun version hv => ?_⟩
    · rw [hstep] at hd
      cases hd
    · rw [hstep] at hd
      cases hd
    · rw [hunseen] at hv
      cases hv
  | some version =>
    have hseen : S.seen h c (S.key document) = some version := hi.held c _ ▸ hheld
    obtain ⟨-, hwrite⟩ := hl.write s.content document event version hi.inv (hg version hheld)
    cases hr : (S.write s.content document event version).raised with
    | some e =>
      simp only [hr] at hwrite
      have hstep : (S.step s (.write c document event)).1 = .raised e := by
        simp only [VersionedStore.step, hheld, hr]
      have hsame : (S.step s (.write c document event)).2.content = s.content := by
        simp only [VersionedStore.step, hheld, hr, hwrite.1]
      refine ⟨fun hd => ?_, fun hd => ?_, fun _ _ _ => ⟨⟨e, hstep⟩, hsame⟩⟩
      · rw [hstep] at hd
        cases hd
      · rw [hstep] at hd
        cases hd
    | none =>
      simp only [hr] at hwrite
      obtain ⟨hbefore, -, hstored⟩ := hwrite
      have hafter : S.stored (S.step s (.write c document event)).2.content (S.key document)
          = some (version + 1) := by
        simp only [VersionedStore.step, hheld, hr, hstored, Function.update_self]
      refine ⟨fun _ => ⟨version, hseen, hbefore, hafter⟩, fun _ => ?_, fun v hv hne => ?_⟩
      · obtain ⟨latest, hlatest, -, hup⟩ := hi.known c _ version hseen
        rw [hbefore, Option.some.injEq] at hlatest
        exact hup hlatest
      · rw [hseen, Option.some.injEq] at hv
        exact absurd (hv ▸ hbefore) hne

/-- **Compare and swap.** Over every run of a lawful store whose writes are good. -/
theorem Lawful.swaps (hl : Lawful S Inv good) {calls : List (ClientCall ι κ δ η)}
    (hm : (S.clients ι).Meets (fun _ s call => GoodCall good s call) calls)
    {pre post : List (ClientCall ι κ δ η)} {c : ι} {document : δ} {event : Option η}
    (hp : calls = pre ++ .write c document event :: post) :
    Swapped S ((S.clients ι).history pre) ((S.clients ι).state pre) c document event := by
  have hpre : (S.clients ι).Meets (fun _ s call => GoodCall good s call) pre := by
    intro pre' i post' hpre'
    exact hm pre' i (post' ++ .write c document event :: post) (by rw [hp, hpre']; simp)
  have hi : Coherently S Inv ((S.clients ι).history pre) ((S.clients ι).state pre) := by
    refine (S.clients ι).induct (fun h s => Coherently S Inv h s) ?_
      (fun h s call hi hg => hi.step hl hg) hpre
    exact ⟨hl.empty, fun _ _ => rfl, fun _ _ _ hv => nomatch hv⟩
  exact hi.swapped hl (hm pre _ post hp)

end VersionedStore

end UniversalAgent.Foundation
