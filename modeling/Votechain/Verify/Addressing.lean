import Votechain.Pallet.Mock
import Votechain.Verify.Reachable

/-!
# Content addressing

The key of an election is the hash of its record as created, which closing the election does not
change back; the key of a candidate is the hash of the candidate. `ContentAddressed` says so of a
storage, with the bounds on the lengths of what is stored, and that the rosters list stored
candidates of their own election.
-/

open Frame Machine

namespace Votechain

variable {Hash AccountId : Type} {T : Config Hash}

/-- For a length that fits a `u32` the bounds are those of the configuration. -/
theorem Config.descriptionFits_iff {d : List UInt8} (hd : d.length < 2 ^ 32) :
    T.DescriptionFits d ↔
      T.electionMinBytes.toNat < d.length ∧ d.length < T.electionMaxBytes.toNat := by
  rw [Config.DescriptionFits, UInt32.lt_iff_toNat_lt, UInt32.lt_iff_toNat_lt,
    UInt32.toNat_ofNat_of_lt' hd]

theorem Config.nameFits_iff {name : List UInt8} (hn : name.length < 2 ^ 32) :
    T.NameFits name ↔
      T.candidateMinBytes.toNat < name.length ∧ name.length < T.candidateMaxBytes.toNat := by
  rw [Config.NameFits, UInt32.lt_iff_toNat_lt, UInt32.lt_iff_toNat_lt,
    UInt32.toNat_ofNat_of_lt' hn]

variable [DecidableEq Hash]

structure ContentAddressed (T : Config Hash) (s : Storage Hash AccountId) : Prop where
  elections : ∀ e election, s.elections.get e = some election →
    e = T.hashOfElection { description := election.description, isOpen := true } ∧
      T.electionMinBytes.toNat < election.description.length ∧
      election.description.length < T.electionMaxBytes.toNat
  descriptions : ∀ e e' election election', s.elections.get e = some election →
    s.elections.get e' = some election' → election.description = election'.description → e = e'
  candidates : ∀ k x, s.candidates.get k = some x →
    k = T.hashOfCandidate x ∧ x.electionId ∈ s.elections.keys ∧
      T.candidateMinBytes.toNat < x.candidateName.length ∧
      x.candidateName.length < T.candidateMaxBytes.toNat
  rosters : ∀ e l, s.electionCandidates.get e = some l →
    ∀ x ∈ l, x.electionId = e ∧ s.candidates.get (T.hashOfCandidate x) = some x

variable [DecidableEq AccountId]

/-- Without collisions, and for byte vectors whose length fits a `u32`, every reachable storage is
content-addressed. -/
theorem run_contentAddressed (T : Config Hash) (xs : List (Extrinsic Hash AccountId))
    (hcf : CollisionFree T xs) (hd : ∀ d ∈ descriptions xs, d.length < 2 ^ 32)
    (hn : ∀ x ∈ candidateRecords xs, x.candidateName.length < 2 ^ 32) :
    ContentAddressed T (run T xs) where
  elections e election he := by
    obtain ⟨hmem, hid, hfits⟩ := election_of_run he
    exact ⟨hid, (Config.descriptionFits_iff (hd _ hmem)).mp hfits⟩
  descriptions e e' election election' he he' heq := by
    obtain ⟨_, hid, _⟩ := election_of_run he
    obtain ⟨_, hid', _⟩ := election_of_run he'
    rw [hid, hid', heq]
  candidates k x hx := by
    obtain ⟨hmem, hfits⟩ := candidate_of_run hx
    obtain ⟨hk, he⟩ := wellFormed_run.candidates hx
    exact ⟨hk, StorageMap.mem_keys.mpr he, (Config.nameFits_iff (hn _ hmem)).mp hfits⟩
  rosters e l hl x hx := by
    obtain ⟨hmem, he, hsome⟩ := roster_of_run hl hx
    obtain ⟨y, hy⟩ := Option.isSome_iff_exists.mp hsome
    -- the id of the listed candidate holds a record with the same hash
    have hxy : x = y := hcf.candidates x hmem y (mem_candidateRecords hy)
      (wellFormed_run.candidates hy).1
    exact ⟨he, hxy ▸ hy⟩

theorem run_contentAddressed_mock :
    let xs : List (Extrinsic _ Nat) := [⟨.root, .createElection Mock.board⟩,
      ⟨.root, .createCandidate Mock.name Mock.boardId⟩, ⟨.root, .closeElection Mock.boardId⟩]
    ContentAddressed Mock.config (run Mock.config xs) :=
  run_contentAddressed Mock.config _ ⟨by decide, by decide⟩ (by decide) (by decide)

end Votechain
