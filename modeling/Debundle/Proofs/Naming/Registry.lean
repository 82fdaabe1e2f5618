import Debundle.Naming.Registry
import Debundle.Proofs.Entries
import Debundle.Proofs.Naming.UniqueName

/-!
# Runs of a registry

A registry is asked to name modules and to tell their names, in any order, and an id may be
named again.  The registry keeps two tables, one by id and one of the names that are taken.
Both stay in step with the claims that were made: the names by id are those of the last
claims, and the taken names are those of all claims that proposed one.
-/

namespace Debundle.Registry

/-- What a registry is asked. -/
inductive Request where
  | claim (id : Int) (candidate : String)
  | resolve (argument : Value)

/-- A claim that was made, and the name that was given. -/
structure Claim where
  id : Int
  candidate : String
  name : Value

/-- The claim proposes a name of its own. -/
def Claim.isDerived (claim : Claim) : Bool :=
  !claim.candidate.isEmpty

/-- The name is the candidate itself or a numbered form of it; without a candidate it is
made of the id. -/
structure Claim.IsSpelled (claim : Claim) : Prop where
  derived : claim.isDerived = true → claim.name = .text claim.candidate ∨
    ∃ number ≥ 1, claim.name = .text (claim.candidate ++ "__" ++ toString number)
  fallback : claim.isDerived = false → claim.name = .text (fallbackName claim.id)

/-- The answer to a request, and the registry after it. -/
def answer (registry : Registry) : Request → Except Fault (Option Value) × Registry
  | .claim id candidate =>
    (.ok (some (registry.nameFor id (.text candidate))), registry.claim id (.text candidate))
  | .resolve argument => (registry.resolve argument, registry)

/-- The claim that a request makes, with the name that it is answered. -/
def claimOf? (registry : Registry) (request : Request) : Option Claim :=
  match request, (registry.answer request).1 with
  | .claim id candidate, .ok (some name) => some { id, candidate, name }
  | _, _ => none

/-- A registry and the claims that were made on it, in order. -/
structure History where
  registry : Registry := {}
  claims : List Claim := []

namespace History

/-- The history goes on with a request. -/
def next (history : History) (request : Request) : History where
  registry := (history.registry.answer request).2
  claims := history.claims ++ (history.registry.claimOf? request).toList

/-- What a new registry comes to by requests. -/
def ofRequests (requests : List Request) : History :=
  requests.foldl next {}

end History

/-- The name that the last claim for an id was given. -/
def lastName? (claims : List Claim) (id : Int) : Option Value :=
  (claims.filter fun claim => claim.id = id).getLast?.map Claim.name

/-- The tables of a registry are those that the claims leave.  The claims were given names
of the right spelling, and the names for candidates are kept apart. -/
structure Records (registry : Registry) (claims : List Claim) : Prop where
  name?_eq : ∀ id, registry.name? id = lastName? claims id
  ids_eq : registry.names.map Prod.fst = (claims.map Claim.id).eraseDups
  claimed_eq : registry.claimed = (claims.filter Claim.isDerived).map Claim.name
  apart : (claims.filter Claim.isDerived).Pairwise fun left right => left.name ≠ right.name
  spelled : ∀ claim ∈ claims, claim.IsSpelled

variable {registry : Registry} {claims : List Claim} {claim : Claim} {request : Request}

theorem lastName?_concat (claims : List Claim) (claim : Claim) (id : Int) :
    lastName? (claims ++ [claim]) id =
      if claim.id = id then some claim.name else lastName? claims id := by
  by_cases hid : claim.id = id
  · simp [lastName?, hid]
  · simp [lastName?, hid]

theorem filter_isDerived_concat (claims : List Claim) (claim : Claim) :
    (claims ++ [claim]).filter Claim.isDerived =
      claims.filter Claim.isDerived ++ if claim.isDerived then [claim] else [] := by
  rw [List.filter_append, List.filter_singleton]
  cases claim.isDerived <;> rfl

theorem eraseDups_concat (ids : List Int) (id : Int) :
    (ids ++ [id]).eraseDups = if id ∈ ids then ids.eraseDups else ids.eraseDups ++ [id] := by
  rw [List.eraseDups_append]
  by_cases hmem : id ∈ ids
  · simp [List.removeAll, hmem]
  · simp [List.removeAll, hmem, List.eraseDups_cons]

/-- A claim gives its id the name and leaves the other ids. -/
theorem name?_claim (registry : Registry) (id other : Int) (candidate : Value) :
    (registry.claim id candidate).name? other =
      if id = other then some (registry.nameFor id candidate) else registry.name? other := by
  rw [name?, claim, Entries.lookup_put]
  by_cases hid : id = other
  · rw [if_pos hid, if_pos (beq_iff_eq.2 hid.symm)]
  · rw [if_neg hid, beq_false_of_ne (Ne.symm hid)]
    rfl

/-- An id that is there already keeps its place, and a new one comes last. -/
theorem ids_claim (registry : Registry) (id : Int) (candidate : Value) :
    (registry.claim id candidate).names.map Prod.fst =
      if id ∈ registry.names.map Prod.fst then registry.names.map Prod.fst
      else registry.names.map Prod.fst ++ [id] :=
  Entries.keys_put registry.names id (registry.nameFor id candidate)

/-- A name that comes from a candidate is taken from then on. -/
theorem claimed_claim (registry : Registry) (id : Int) (candidate : Value) :
    (registry.claim id candidate).claimed =
      registry.claimed ++ if candidate.isTruthy then [registry.nameFor id candidate] else [] := by
  rw [claim]
  split
  · rfl
  · rw [List.append_nil]

/-- What a claim does to the tables, and what name it is given. -/
structure Entered (registry : Registry) (claim : Claim) (after : Registry) : Prop where
  name?_eq : ∀ id, after.name? id = if claim.id = id then some claim.name else registry.name? id
  ids_eq : after.names.map Prod.fst =
    if claim.id ∈ registry.names.map Prod.fst then registry.names.map Prod.fst
    else registry.names.map Prod.fst ++ [claim.id]
  claimed_eq : after.claimed =
    registry.claimed ++ if claim.isDerived then [claim.name] else []
  spelled : claim.IsSpelled
  free : claim.isDerived = true → claim.name ∉ registry.claimed

/-- The name for a candidate is a spelling of it that is not taken. -/
theorem nameFor_of_derived (registry : Registry) (id : Int) {candidate : String}
    (hderived : (Value.text candidate).isTruthy = true) :
    ∃ text, registry.nameFor id (.text candidate) = .text text ∧
      Value.text text ∉ registry.claimed ∧
      (text = candidate ∨ ∃ number ≥ 1, text = candidate ++ "__" ++ toString number) := by
  obtain ⟨index, -, heq, hfree, -⟩ := uniqueName_eq_first (.text candidate) registry.claimed
  obtain ⟨text, htext, hspelled⟩ : ∃ text, numberedName (.text candidate) index = .text text ∧
      (text = candidate ∨ ∃ number ≥ 1, text = candidate ++ "__" ++ toString number) := by
    rw [numberedName]
    by_cases hindex : index = 0
    · exact ⟨candidate, if_pos hindex, .inl rfl⟩
    · exact ⟨_, if_neg hindex, .inr ⟨index, Nat.one_le_iff_ne_zero.2 hindex, rfl⟩⟩
  refine ⟨text, by rw [nameFor, if_pos hderived, heq, htext], fun hmem => ?_, hspelled⟩
  rw [htext, Value.contains_text_iff.2 hmem] at hfree
  cases hfree

/-- A claim that is answered is entered in the tables. -/
theorem entered_of_claimOf? (hclaim : registry.claimOf? request = some claim) :
    registry.Entered claim (registry.answer request).2 := by
  cases request with
  | resolve => cases hclaim
  | claim id candidate =>
    cases hclaim
    refine ⟨fun other => name?_claim registry id other (.text candidate),
      ids_claim registry id (.text candidate), claimed_claim registry id (.text candidate),
      ⟨fun hderived => ?_, fun hfallback => ?_⟩, fun hderived => ?_⟩
    · obtain ⟨text, htext, -, hspelled⟩ := nameFor_of_derived registry id hderived
      simpa [htext] using hspelled
    · exact if_neg (Bool.eq_false_iff.1 hfallback)
    · obtain ⟨text, htext, hfree, -⟩ := nameFor_of_derived registry id hderived
      exact htext ▸ hfree

theorem Records.empty : Records {} [] where
  name?_eq _ := rfl
  ids_eq := rfl
  claimed_eq := rfl
  apart := .nil
  spelled _ hclaim := absurd hclaim List.not_mem_nil

/-- A claim keeps the tables in step with the claims. -/
theorem Records.concat {after : Registry} (hrecords : registry.Records claims)
    (hentered : registry.Entered claim after) : after.Records (claims ++ [claim]) where
  name?_eq id := by
    rw [hentered.name?_eq, lastName?_concat, hrecords.name?_eq]
  ids_eq := by
    rw [hentered.ids_eq, hrecords.ids_eq, List.map_append, List.map_singleton, eraseDups_concat]
    simp only [List.mem_eraseDups]
  claimed_eq := by
    rw [hentered.claimed_eq, hrecords.claimed_eq, filter_isDerived_concat, List.map_append]
    cases claim.isDerived <;> rfl
  apart := by
    rw [filter_isDerived_concat]
    cases hderived : claim.isDerived with
    | false => simpa using hrecords.apart
    | true =>
      rw [if_pos rfl, List.pairwise_append]
      refine ⟨hrecords.apart, List.pairwise_singleton _ _, fun earlier hearlier later hlater => ?_⟩
      rw [List.mem_singleton.1 hlater]
      have htaken : earlier.name ∈ registry.claimed := by
        rw [hrecords.claimed_eq]
        exact List.mem_map_of_mem hearlier
      intro hsame
      exact hentered.free hderived (hsame ▸ htaken)
  spelled := by
    intro other hother
    rcases List.mem_append.1 hother with hbefore | hnew
    · exact hrecords.spelled other hbefore
    · rw [List.mem_singleton.1 hnew]
      exact hentered.spelled

/-- Whatever is asked, the tables stay in step with the claims. -/
theorem Records.next {history : History} (hrecords : history.registry.Records history.claims)
    (request : Request) :
    (history.next request).registry.Records (history.next request).claims := by
  rw [History.next]
  cases hclaim : history.registry.claimOf? request with
  | some claim => exact hrecords.concat (entered_of_claimOf? hclaim)
  | none =>
    cases request with
    | claim => cases hclaim
    | resolve argument => simpa [answer] using hrecords

theorem History.records (requests : List Request) :
    (ofRequests requests).registry.Records (ofRequests requests).claims := by
  induction requests using List.reverseRecOn with
  | nil => exact .empty
  | append_singleton requests request ih =>
    rw [ofRequests, List.foldl_append]
    exact ih.next request

/-- After any requests the tables of a registry are those that its claims leave: each id has
the name of its last claim and the place of its first, and the names for candidates are
spellings of them that are kept apart.  A claim leaves the names and the places of other ids;
telling a name changes nothing, and tells the name of the last claim. -/
theorem records_after_requests (requests : List Request) :
    let history := History.ofRequests requests
    history.registry.Records history.claims ∧
      (∀ id candidate other, other ≠ id →
        (history.next (.claim id candidate)).registry.name? other =
          history.registry.name? other) ∧
      (∀ id candidate, history.registry.names.map Prod.fst <+:
        (history.next (.claim id candidate)).registry.names.map Prod.fst) ∧
      ∀ argument, (history.next (.resolve argument)).registry = history.registry ∧
        history.registry.resolve argument =
          (moduleIndex argument).map fun index? => index?.bind (lastName? history.claims) := by
  intro history
  have hrecords : history.registry.Records history.claims := History.records requests
  refine ⟨hrecords, fun id candidate other hother => ?_, fun id candidate => ?_,
    fun argument => ⟨rfl, ?_⟩⟩
  · exact (name?_claim history.registry id other (.text candidate)).trans (if_neg hother.symm)
  · rw [History.next, answer, ids_claim]
    split
    · exact List.prefix_rfl
    · exact List.prefix_append _ _
  · have hnames : history.registry.name? = lastName? history.claims := funext hrecords.name?_eq
    rw [resolve, hnames]
    cases moduleIndex argument <;> rfl

end Debundle.Registry
