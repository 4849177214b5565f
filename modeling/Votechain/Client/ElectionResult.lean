import Votechain.Client.Reducer
import Votechain.Theory.Run

/-!
# The result page

The page asks for the candidates and for the votes whenever another election is selected, and the
replies fill the slots of the context in the order in which they arrive. With nothing outstanding
the page shows the selected election exactly if the last reply of each kind is as good as a reply
for that election.
-/

open Frame Machine History

namespace Votechain.Client

variable {Hash AccountId Args : Type}

/-- What the node answers. `blankVotes` is its answer for the blank election id. -/
structure ChainView (Hash AccountId : Type) where
  toHuman : List UInt8 → String
  candidates : List (Hash × Candidate Hash)
  electionVotes : StorageMap Hash (List (Vote Hash AccountId))
  blankVotes : Option (List (Vote Hash AccountId))

/-- A query that was sent. No election id is the blank one, which is sent when the page opens. -/
inductive Query (Hash : Type) where
  | candidates (electionId : Option Hash)
  | votes (electionId : Option Hash)
  deriving DecidableEq

/-- The effect of the page for an election id sends both queries. -/
def electionQueries (electionId : Option Hash) : List (Query Hash) :=
  [.candidates electionId, .votes electionId]

structure ElectionResult (Hash AccountId Args : Type) where
  electionId : Option Hash
  context : ContextState Hash AccountId Args
  outstanding : List (Query Hash)

inductive ResultEvent (Hash : Type) where
  | select (electionId : Hash)
  | reply (query : Query Hash)

variable [DecidableEq Hash]

namespace ChainView

variable (view : ChainView Hash AccountId)

def candidatesOf (electionId : Option Hash) : List (SelectOption Hash) :=
  candidatesFor view.toHuman view.candidates electionId

def votesOf : Option Hash → Option (List (Vote Hash AccountId))
  | some electionId => fetchVotes view.electionVotes electionId
  | none => view.blankVotes

/-- What the reply to a query dispatches. -/
def answer : Query Hash → Action Hash AccountId Args
  | .candidates electionId => .fetchCandidates (view.candidatesOf electionId)
  | .votes electionId => .fetchVotes (view.votesOf electionId)

end ChainView

namespace ElectionResult

/-- The page as it opens, in a context that other pages may have filled, with the queries of theirs
that are not answered yet. -/
def mount (context : ContextState Hash AccountId Args) (pending : List (Query Hash)) :
    ElectionResult Hash AccountId Args where
  electionId := none
  context := context
  outstanding := pending ++ electionQueries none

/-- The event is handled, or it cannot happen and is answered with `false`. Selecting the election
again changes nothing. -/
def step (view : ChainView Hash AccountId) :
    ResultEvent Hash → ElectionResult Hash AccountId Args →
      Bool × ElectionResult Hash AccountId Args
  | .select electionId, page =>
    if page.electionId = some electionId then
      (true, page)
    else
      (true, { page with
        electionId := some electionId
        outstanding := page.outstanding ++ electionQueries (some electionId) })
  | .reply query, page =>
    if query ∈ page.outstanding then
      (true, { page with
        context := reducer page.context (view.answer query)
        outstanding := page.outstanding.erase query })
    else
      (false, page)

end ElectionResult

/-! ## The last replies -/

section
omit [DecidableEq Hash]

/-- The election that the event selects. -/
def selection : ResultEvent Hash → Option Hash
  | .select electionId => some electionId
  | .reply _ => none

/-- The election id that the arriving reply of candidates is for. -/
def candidatesReply : ResultEvent Hash × Bool → Option (Option Hash)
  | (.reply (.candidates electionId), true) => some electionId
  | _ => none

/-- The election id that the arriving reply of votes is for. -/
def votesReply : ResultEvent Hash × Bool → Option (Option Hash)
  | (.reply (.votes electionId), true) => some electionId
  | _ => none

end

/-- The slots hold what the last replies brought, and the queries that were sent as the page opened
are outstanding or answered. -/
structure LastReplies (view : ChainView Hash AccountId) (context : ContextState Hash AccountId Args)
    (h : List (ResultEvent Hash × Bool)) (page : ElectionResult Hash AccountId Args) : Prop where
  candidates : page.context.candidates =
    ((lastSome candidatesReply h).map view.candidatesOf).getD context.candidates
  votes : page.context.votes = ((lastSome votesReply h).map view.votesOf).getD context.votes
  candidatesAnswered : .candidates none ∈ page.outstanding ∨ (lastSome candidatesReply h).isSome
  votesAnswered : .votes none ∈ page.outstanding ∨ (lastSome votesReply h).isSome

namespace LastReplies

variable {view : ChainView Hash AccountId} {context : ContextState Hash AccountId Args}
  {h : List (ResultEvent Hash × Bool)} {page : ElectionResult Hash AccountId Args}

theorem mount {pending : List (Query Hash)} :
    LastReplies view context [] (.mount context pending) :=
  ⟨rfl, rfl, .inl (by simp [ElectionResult.mount, electionQueries]),
    .inl (by simp [ElectionResult.mount, electionQueries])⟩

theorem concat_of_none (hp : LastReplies view context h page) {p : ResultEvent Hash × Bool}
    (hc : candidatesReply p = none) (hv : votesReply p = none) {page' : ElectionResult Hash _ Args}
    (hcontext : page'.context = page.context) (hout : page.outstanding ⊆ page'.outstanding) :
    LastReplies view context (h ++ [p]) page' := by
  constructor
  · rw [lastSome_concat, hc, hcontext]; exact hp.candidates
  · rw [lastSome_concat, hv, hcontext]; exact hp.votes
  · rw [lastSome_concat, hc]; exact hp.candidatesAnswered.imp_left (hout ·)
  · rw [lastSome_concat, hv]; exact hp.votesAnswered.imp_left (hout ·)

theorem step (hp : LastReplies view context h page) (x : ResultEvent Hash) :
    LastReplies view context (h ++ [(x, (ElectionResult.step view x page).1)])
      (ElectionResult.step view x page).2 := by
  cases x with
  | select electionId =>
    rw [ElectionResult.step]
    split
    · exact hp.concat_of_none rfl rfl rfl (List.Subset.refl _)
    · exact hp.concat_of_none rfl rfl rfl (List.subset_append_left _ _)
  | reply query =>
    rw [ElectionResult.step]
    split
    · cases query with
      | candidates electionId =>
        refine ⟨by simp [lastSome_concat, candidatesReply, reducer, ChainView.answer], ?_, ?_, ?_⟩
        · simpa [lastSome_concat, votesReply, reducer, ChainView.answer] using hp.votes
        · simp [lastSome_concat, candidatesReply]
        · have hne : Query.votes none ≠ Query.candidates electionId := nofun
          rw [lastSome_concat]
          exact hp.votesAnswered.imp_left (List.mem_erase_of_ne hne).mpr
      | votes electionId =>
        refine ⟨?_, by simp [lastSome_concat, votesReply, reducer, ChainView.answer], ?_, ?_⟩
        · simpa [lastSome_concat, candidatesReply, reducer, ChainView.answer] using hp.candidates
        · have hne : Query.candidates none ≠ Query.votes electionId := nofun
          rw [lastSome_concat]
          exact hp.candidatesAnswered.imp_left (List.mem_erase_of_ne hne).mpr
        · simp [lastSome_concat, votesReply]
    · exact hp.concat_of_none (by cases query <;> rfl) (by cases query <;> rfl) rfl
        (List.Subset.refl _)

end LastReplies

/-! ## What the page settles on -/

/-- The context holds the candidates and the votes of the election, so the cells of the table count
its ballots. -/
structure Shows (view : ChainView Hash AccountId) (context : ContextState Hash AccountId Args)
    (electionId : Hash) : Prop where
  candidates : context.candidates =
    (view.candidates.filter fun entry => entry.2.electionId = electionId).map
      (candidateOption view.toHuman)
  votes : context.votes = view.electionVotes.get electionId
  cells : ∀ cand ∈ context.candidates, votesCell context.votes cand =
    ((view.electionVotes.get electionId).getD []).countP fun x => x.candidateId = cand.key

theorem votesCell_eq {votes : Option (List (Vote Hash AccountId))} {cand : SelectOption Hash} :
    votesCell votes cand = (votes.getD []).countP fun x => x.candidateId = cand.key := by
  cases votes with
  | none => rfl
  | some votes => exact List.countP_eq_length_filter.symm

section
variable (view : ChainView Hash AccountId) (context : ContextState Hash AccountId Args)
  (pending : List (Query Hash)) (xs : List (ResultEvent Hash))

/-- The page after the events, from its opening on. -/
abbrev resultPage : ElectionResult Hash AccountId Args :=
  finalState (ElectionResult.step view) (.mount context pending) xs

abbrev resultHistory : List (ResultEvent Hash × Bool) :=
  trace (ElectionResult.step view) (ElectionResult.mount context pending) xs

end

theorem lastReplies_run (view : ChainView Hash AccountId)
    (context : ContextState Hash AccountId Args) (pending : List (Query Hash))
    (xs : List (ResultEvent Hash)) :
    LastReplies view context (resultHistory view context pending xs)
      (resultPage view context pending xs) :=
  trace_induction .mount (fun _ _ x hp => hp.step x) xs

theorem selected_run (view : ChainView Hash AccountId)
    (context : ContextState Hash AccountId Args) (pending : List (Query Hash))
    (xs : List (ResultEvent Hash)) :
    (resultPage view context pending xs).electionId = lastSome selection xs := by
  induction xs using List.reverseRecOn with
  | nil => rfl
  | append_singleton xs x ih =>
    rw [resultPage, finalState_concat, lastSome_concat, ← ih]
    cases x <;> rw [ElectionResult.step] <;> split <;> first | assumption | rfl

/-- The last reply of candidates and the last reply of votes were for the election, or for one with
the same candidates and with the same votes. -/
structure AnswersLast (view : ChainView Hash AccountId) (h : List (ResultEvent Hash × Bool))
    (electionId : Hash) : Prop where
  candidates : ∃ e, lastSome candidatesReply h = some e ∧
    view.candidatesOf e = view.candidatesOf (some electionId)
  votes : ∃ e, lastSome votesReply h = some e ∧
    view.votesOf e = view.votesOf (some electionId)

theorem shows_iff {view : ChainView Hash AccountId} {context : ContextState Hash AccountId Args}
    {pending : List (Query Hash)} {xs : List (ResultEvent Hash)}
    (hquiet : (resultPage view context pending xs).outstanding = []) (electionId : Hash) :
    Shows view (resultPage view context pending xs).context electionId ↔
      AnswersLast view (resultHistory view context pending xs) electionId := by
  have hlast := lastReplies_run view context pending xs
  have hcand := hlast.candidatesAnswered
  have hvotes := hlast.votesAnswered
  rw [hquiet] at hcand hvotes
  obtain ⟨c, hc⟩ := Option.isSome_iff_exists.mp (hcand.resolve_left List.not_mem_nil)
  obtain ⟨v, hv⟩ := Option.isSome_iff_exists.mp (hvotes.resolve_left List.not_mem_nil)
  have hcandidates := hlast.candidates
  have hballots := hlast.votes
  rw [hc, Option.map_some, Option.getD_some] at hcandidates
  rw [hv, Option.map_some, Option.getD_some] at hballots
  have hoptions : view.candidatesOf (some electionId) =
      (view.candidates.filter fun entry => entry.2.electionId = electionId).map
        (candidateOption view.toHuman) := fetchCandidates_eq
  constructor
  · intro h
    refine ⟨⟨c, hc, ?_⟩, ⟨v, hv, hballots.symm.trans h.votes⟩⟩
    exact hcandidates.symm.trans (h.candidates.trans hoptions.symm)
  · rintro ⟨⟨c', hc', hceq⟩, v', hv', hveq⟩
    cases hc.symm.trans hc'
    cases hv.symm.trans hv'
    refine ⟨hcandidates.trans (hceq.trans hoptions), hballots.trans hveq, fun cand _ => ?_⟩
    rw [votesCell_eq, hballots, hveq]
    rfl

/-- With nothing outstanding, the page shows the election that was selected last iff the last
replies answer for it. -/
theorem resultPage_settles_iff (view : ChainView Hash AccountId)
    (context : ContextState Hash AccountId Args) (pending : List (Query Hash))
    (xs : List (ResultEvent Hash))
    (hquiet : (resultPage view context pending xs).outstanding = []) :
    (∀ e, lastSome selection xs = some e →
        Shows view (resultPage view context pending xs).context e) ↔
      ∀ e, lastSome selection xs = some e →
        AnswersLast view (resultHistory view context pending xs) e :=
  forall₂_congr fun e _ => shows_iff hquiet e

/-- Two elections, each with a candidate and a ballot. -/
def twoElections : ChainView Nat Nat where
  toHuman _ := ""
  candidates := [(10, ⟨[], 1⟩), (20, ⟨[], 2⟩)]
  electionVotes := ((∅ : StorageMap Nat _).insert 1 [⟨10, 1, 0⟩]).insert 2 [⟨20, 2, 0⟩]
  blankVotes := none

/-- The replies arrive in the order of the queries. -/
theorem resultPage_settles_inOrder :
    let xs := [.select 1, .reply (.candidates none), .reply (.votes none), .select 2,
      .reply (.candidates (some 1)), .reply (.votes (some 1)), .reply (.candidates (some 2)),
      .reply (.votes (some 2))]
    let context : ContextState Nat Nat Unit := initialState
    ∀ e, lastSome selection xs = some e →
      Shows twoElections (resultPage twoElections context [] xs).context e := by
  intro xs context
  refine (resultPage_settles_iff twoElections context [] xs (by decide)).mpr fun e he => ?_
  cases he
  exact ⟨⟨some 2, by decide, rfl⟩, ⟨some 2, by decide, rfl⟩⟩

/-- The replies for the election that was selected first arrive last. -/
theorem not_resultPage_settles :
    let xs := [.select 1, .select 2, .reply (.candidates none), .reply (.votes none),
      .reply (.candidates (some 2)), .reply (.votes (some 2)), .reply (.candidates (some 1)),
      .reply (.votes (some 1))]
    let context : ContextState Nat Nat Unit := initialState
    (resultPage twoElections context [] xs).outstanding = [] ∧ lastSome selection xs = some 2 ∧
      ¬ Shows twoElections (resultPage twoElections context [] xs).context 2 := by
  refine ⟨by decide, by decide, fun h => ?_⟩
  exact absurd h.candidates (by decide)

/-! ## Replies in order -/

section
omit [DecidableEq Hash]

def Query.candidatesId : Query Hash → Option (Option Hash)
  | .candidates electionId => some electionId
  | .votes _ => none

def Query.votesId : Query Hash → Option (Option Hash)
  | .votes electionId => some electionId
  | .candidates _ => none

/-- `id` reads the election id of the queries of a kind, and `reply` that of their replies. A page
sends one query of the kind at a time. -/
structure IsKind (id : Query Hash → Option (Option Hash))
    (reply : ResultEvent Hash × Bool → Option (Option Hash)) : Prop where
  inj : ∀ q q' e, id q = some e → id q' = some e → q = q'
  reply_true : ∀ q, reply (.reply q, true) = id q
  reply_false : ∀ x, reply (x, false) = none
  reply_select : ∀ e r, reply (.select e, r) = none
  electionQueries : ∀ e, (electionQueries e).filterMap id = [e]

theorem isKind_candidates : IsKind (@Query.candidatesId Hash) candidatesReply where
  inj q q' e h h' := by
    cases q <;> cases h
    cases q' <;> cases h'
    rfl
  reply_true q := by cases q <;> rfl
  reply_false x := by
    cases x with
    | select => rfl
    | reply q => cases q <;> rfl
  reply_select e r := rfl
  electionQueries e := rfl

theorem isKind_votes : IsKind (@Query.votesId Hash) votesReply where
  inj q q' e h h' := by
    cases q <;> cases h
    cases q' <;> cases h'
    rfl
  reply_true q := by cases q <;> rfl
  reply_false x := by
    cases x with
    | select => rfl
    | reply q => cases q <;> rfl
  reply_select e r := rfl
  electionQueries e := rfl

end

/-- A reply that arrives is for the oldest query of its kind. -/
def InOrder (page : ElectionResult Hash AccountId Args) : ResultEvent Hash → Prop
  | .select _ => True
  | .reply query => query ∈ page.outstanding → ∀ id ∈ [Query.candidatesId, Query.votesId],
    (id query).isSome → (page.outstanding.filterMap id).head? = id query

instance {page : ElectionResult Hash AccountId Args} :
    (x : ResultEvent Hash) → Decidable (InOrder page x)
  | .select _ => .isTrue trivial
  | .reply query => inferInstanceAs (Decidable (query ∈ page.outstanding → ∀ id ∈ _, _))

/-- The last query of the kind, answered or not, is for the selected election. -/
def AsksForSelected (id : Query Hash → Option (Option Hash))
    (reply : ResultEvent Hash × Bool → Option (Option Hash)) (h : List (ResultEvent Hash × Bool))
    (page : ElectionResult Hash AccountId Args) : Prop :=
  (h.filterMap reply ++ page.outstanding.filterMap id).getLast? = some page.electionId

theorem AsksForSelected.step {id : Query Hash → Option (Option Hash)}
    {reply : ResultEvent Hash × Bool → Option (Option Hash)} (hk : IsKind id reply)
    {view : ChainView Hash AccountId} {h : List (ResultEvent Hash × Bool)}
    {page : ElectionResult Hash AccountId Args} {x : ResultEvent Hash}
    (hid : id ∈ [Query.candidatesId, Query.votesId]) (hx : InOrder page x)
    (hp : AsksForSelected id reply h page) :
    AsksForSelected id reply (h ++ [(x, (ElectionResult.step view x page).1)])
      (ElectionResult.step view x page).2 := by
  rw [AsksForSelected] at hp ⊢
  cases x with
  | select electionId =>
    rw [List.filterMap_append, List.filterMap_cons_none (hk.reply_select _ _), List.filterMap_nil,
      List.append_nil, ElectionResult.step]
    split
    · exact hp
    · simp [hk.electionQueries]
  | reply query =>
    rw [ElectionResult.step]
    split
    · rename_i hmem
      rw [List.filterMap_append]
      cases hq : id query with
      | none =>
        rw [List.filterMap_cons_none ((hk.reply_true _).trans hq), List.filterMap_nil,
          List.append_nil, filterMap_erase_of_none hq]
        exact hp
      | some e =>
        -- the reply moves the id from the queries to the answers
        have hhead := filterMap_erase_of_head (fun q h => hk.inj q query e h hq)
          ((hx hmem id hid (by rw [hq]; rfl)).trans hq)
        rw [List.filterMap_cons_some ((hk.reply_true _).trans hq), List.filterMap_nil,
          List.append_assoc, List.singleton_append, hhead]
        exact hp
    · rw [List.filterMap_append, List.filterMap_cons_none (hk.reply_false _), List.filterMap_nil,
        List.append_nil]
      exact hp

theorem asksForSelected_run {id : Query Hash → Option (Option Hash)}
    {reply : ResultEvent Hash × Bool → Option (Option Hash)} (hk : IsKind id reply)
    (hid : id ∈ [Query.candidatesId, Query.votesId]) {view : ChainView Hash AccountId}
    {context : ContextState Hash AccountId Args} {pending : List (Query Hash)}
    {xs : List (ResultEvent Hash)}
    (hxs : EachStep (ElectionResult.step view) InOrder (.mount context pending) xs) :
    AsksForSelected id reply (resultHistory view context pending xs)
      (resultPage view context pending xs) :=
  hxs.trace_induction (P := AsksForSelected id reply)
    (by simp [AsksForSelected, ElectionResult.mount, hk.electionQueries])
    fun _ _ _ hx hp => hp.step hk hid hx

/-- If the replies of each kind arrive in the order of their queries, then with nothing outstanding
the page shows the election that was selected last, however the two kinds interleave. -/
theorem resultPage_shows_of_inOrder (view : ChainView Hash AccountId)
    (context : ContextState Hash AccountId Args) (pending : List (Query Hash))
    (xs : List (ResultEvent Hash))
    (hxs : EachStep (ElectionResult.step view) InOrder (.mount context pending) xs)
    (hquiet : (resultPage view context pending xs).outstanding = []) :
    ∀ e, lastSome selection xs = some e →
      Shows view (resultPage view context pending xs).context e := by
  intro e he
  have hcandidates := asksForSelected_run isKind_candidates (by simp) hxs
  have hvotes := asksForSelected_run isKind_votes (by simp) hxs
  rw [AsksForSelected, hquiet, List.filterMap_nil, List.append_nil, selected_run, he]
    at hcandidates hvotes
  exact (shows_iff hquiet e).mpr ⟨⟨_, hcandidates, rfl⟩, ⟨_, hvotes, rfl⟩⟩

/-- Another election is selected while the replies for the first one are outstanding, and one for
the page before. -/
theorem resultPage_shows_twoElections :
    let pending := [.candidates (some 1)]
    let xs := [.select 1, .reply (.votes none), .reply (.candidates (some 1)), .select 2,
      .reply (.votes (some 1)), .reply (.votes (some 2)), .reply (.candidates none),
      .reply (.candidates (some 1)), .reply (.candidates (some 2))]
    let context : ContextState Nat Nat Unit := initialState
    ∀ e, lastSome selection xs = some e →
      Shows twoElections (resultPage twoElections context pending xs).context e :=
  resultPage_shows_of_inOrder twoElections initialState [.candidates (some 1)] _ (by decide)
    (by decide)

end Votechain.Client
