import Votechain.Pallet.Basic
import Votechain.Theory.History

/-!
# What the client shows of an election

The queries of `VotechainContext` and the table of `ElectionResult`. A query sees the storage of
the pallet: one map entry, or the entries of a map in whatever order the node lists them.
`toHuman` is the text the client prints for a byte vector. Hashes are compared as their printed
forms, which is to compare the hashes.
-/

open Frame

namespace Votechain.Client

variable {Hash AccountId : Type}

/-- An option of a select field. -/
structure SelectOption (Hash : Type) where
  key : Hash
  value : Hash
  text : String
  deriving DecidableEq

section
variable [DecidableEq Hash]

def fetchCandidates (toHuman : List UInt8 → String) (entries : List (Hash × Candidate Hash))
    (electionId : Hash) : List (SelectOption Hash) :=
  entries.foldl (fun acc (candId, desc) =>
    if desc.electionId = electionId then
      acc ++ [{ key := candId, value := candId, text := toHuman desc.candidateName }]
    else
      acc) []

/-- `fetchCandidates` for an election id that may be blank, which no stored candidate has. -/
def candidatesFor (toHuman : List UInt8 → String) (entries : List (Hash × Candidate Hash)) :
    Option Hash → List (SelectOption Hash)
  | some electionId => fetchCandidates toHuman entries electionId
  | none => []

def fetchVotes (electionVotes : StorageMap Hash (List (Vote Hash AccountId))) (electionId : Hash) :
    Option (List (Vote Hash AccountId)) := electionVotes.get electionId

/-- The cell of a candidate in the result table. -/
def votesCell (votes : Option (List (Vote Hash AccountId))) (cand : SelectOption Hash) : Nat :=
  match votes with
  | some votes => (votes.filter fun x => x.candidateId = cand.key).length
  | none => 0

/-- The cell of the result table for all votes. -/
def totalCell (votes : Option (List (Vote Hash AccountId))) : Nat :=
  match votes with
  | some votes => votes.length
  | none => 0

variable {toHuman : List UInt8 → String} {entries : List (Hash × Candidate Hash)} {e : Hash}

/-- The option that stands for an entry of `Candidates`. -/
def candidateOption (toHuman : List UInt8 → String) (entry : Hash × Candidate Hash) :
    SelectOption Hash :=
  ⟨entry.1, entry.1, toHuman entry.2.candidateName⟩

theorem fetchCandidates_eq : fetchCandidates toHuman entries e =
    (entries.filter fun entry => entry.2.electionId = e).map (candidateOption toHuman) := by
  -- the loop started with options already collected
  have aux (acc : List (SelectOption Hash)) :
      entries.foldl (fun acc entry =>
        if entry.2.electionId = e then acc ++ [candidateOption toHuman entry] else acc) acc =
        acc ++ (entries.filter fun entry => entry.2.electionId = e).map
          (candidateOption toHuman) := by
    induction entries generalizing acc with
    | nil => simp
    | cons entry entries ih => by_cases he : entry.2.electionId = e <;> simp [he, ih]
  exact aux []

/-- An option is a candidate of the election that was asked for. -/
theorem exists_of_mem_candidatesFor {electionId : Option Hash} {cand : SelectOption Hash}
    (h : cand ∈ candidatesFor toHuman entries electionId) :
    ∃ x, (cand.value, x) ∈ entries ∧ electionId = some x.electionId := by
  cases electionId with
  | none => cases h
  | some e =>
    rw [candidatesFor, fetchCandidates_eq] at h
    obtain ⟨entry, hentry, rfl⟩ := List.mem_map.mp h
    obtain ⟨hmem, he⟩ := List.mem_filter.mp hentry
    exact ⟨entry.2, hmem, congrArg some (of_decide_eq_true he).symm⟩

variable {candidates : StorageMap Hash (Candidate Hash)}

open StorageMap (Enumerates)

/-- The options are the stored candidates of the election. -/
theorem mem_fetchCandidates (h : Enumerates entries candidates) {cand : SelectOption Hash} :
    cand ∈ fetchCandidates toHuman entries e ↔
      ∃ c x, candidates.get c = some x ∧ x.electionId = e ∧
        candidateOption toHuman (c, x) = cand := by
  simp only [fetchCandidates_eq, List.mem_map, List.mem_filter, Prod.exists, h.mem_iff,
    decide_eq_true_eq, and_assoc]

/-- No two options have the same key. -/
theorem nodup_keys_fetchCandidates (h : Enumerates entries candidates) :
    ((fetchCandidates toHuman entries e).map SelectOption.key).Nodup := by
  rw [fetchCandidates_eq, List.map_map]
  exact h.nodupKeys.sublist (List.filter_sublist.map _)

/-- Where every ballot is for one of the options, the cells of the options add up to the total. -/
theorem sum_votesCell (h : Enumerates entries candidates)
    {votes : Option (List (Vote Hash AccountId))}
    (hv : ∀ l, votes = some l → ∀ v ∈ l, ∃ x, candidates.get v.candidateId = some x ∧
      x.electionId = e) :
    ((fetchCandidates toHuman entries e).map (votesCell votes)).sum = totalCell votes := by
  cases votes with
  | none =>
    refine List.sum_eq_zero fun n hn => ?_
    obtain ⟨_, _, rfl⟩ := List.mem_map.mp hn
    rfl
  | some votes =>
    have hkeys : ∀ v ∈ votes,
        v.candidateId ∈ (fetchCandidates toHuman entries e).map SelectOption.key := by
      intro v hmem
      obtain ⟨x, hx, he⟩ := hv votes rfl v hmem
      exact List.mem_map.mpr ⟨_, (mem_fetchCandidates h).mpr ⟨_, x, hx, he, rfl⟩, rfl⟩
    have hsum := History.sum_length_filter (nodup_keys_fetchCandidates h) hkeys
    rwa [List.map_map] at hsum

end

end Votechain.Client
