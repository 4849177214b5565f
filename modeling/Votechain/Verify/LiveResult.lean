import Votechain.Client.LiveResult
import Votechain.Verify.Refinement

/-!
# Results of a chain that goes on

If the replies of each kind come in order, a page with nothing outstanding has read both slots from
the chain as it was at some times after the election was selected. On a chain that follows the
ballot box its counts are then between those at the selection and those of now, and for an election
that was closed by then they are the final result.
-/

open Frame Machine History

namespace Votechain.Client

variable {Hash AccountId Args : Type} [DecidableEq Hash]

namespace LiveResult

/-! ## One kind of queries -/

/-- The election id and the time of a query of the kind. -/
def asked (id : Query Hash → Option (Option Hash)) (x : Query Hash × Nat) :
    Option (Option Hash × Nat) := (id x.1).map (·, x.2)

/-- `id` reads the election id of the queries of a kind, `slot` the slot that their replies fill and
`ask` what they bring. -/
structure IsSlot {β : Type} (id : Query Hash → Option (Option Hash))
    (slot : ContextState Hash AccountId Args → β)
    (ask : ChainView Hash AccountId → Option Hash → β) : Prop where
  mem : id ∈ [Query.candidatesId, Query.votesId]
  inj : ∀ q q' e, id q = some e → id q' = some e → q = q'
  electionQueries : ∀ e, (electionQueries e).filterMap id = [e]
  fills : ∀ (view : ChainView Hash AccountId) context q e, id q = some e →
    slot (reducer context (view.answer q)) = ask view e
  keeps : ∀ (view : ChainView Hash AccountId) context q, id q = none →
    slot (reducer context (view.answer q)) = slot context

theorem isSlot_candidates : IsSlot Query.candidatesId
    (ContextState.candidates : ContextState Hash AccountId Args → _) ChainView.candidatesOf where
  mem := by simp
  inj := isKind_candidates.inj
  electionQueries := isKind_candidates.electionQueries
  fills view context q e h := by
    cases q <;> cases h
    rfl
  keeps view context q h := by
    cases q <;> cases h
    rfl

theorem isSlot_votes : IsSlot Query.votesId
    (ContextState.votes : ContextState Hash AccountId Args → _) ChainView.votesOf where
  mem := by simp
  inj := isKind_votes.inj
  electionQueries := isKind_votes.electionQueries
  fills view context q e h := by
    cases q <;> cases h
    rfl
  keeps view context q h := by
    cases q <;> cases h
    rfl

section
variable {id : Query Hash → Option (Option Hash)} {sent : List (Query Hash × Nat)}
  {q : Query Hash} {e : Option Hash} {t : Nat}

/-- The oldest query of its kind, where it is the one that is answered. -/
theorem head?_asked (hid : id q = some e) (hinj : ∀ q', id q' = some e → q' = q)
    (hfind : sent.find? (·.1 = q) = some (q, t))
    (hhead : ((sent.map Prod.fst).filterMap id).head? = some e) :
    (sent.filterMap (asked id)).head? = some (e, t) := by
  induction sent with
  | nil => cases hfind
  | cons x sent ih =>
    by_cases hx : x.1 = q
    · rw [List.find?_cons_of_pos (by simpa using hx)] at hfind
      cases hfind
      rw [List.filterMap_cons_some (by rw [asked, hid, Option.map_some]), List.head?_cons]
    · -- the first query is of another kind, or it would be the one that is answered
      rw [List.find?_cons_of_neg (by simpa using hx)] at hfind
      cases hx' : id x.1 with
      | none =>
        rw [List.map_cons, List.filterMap_cons_none hx'] at hhead
        rw [List.filterMap_cons_none (by rw [asked, hx', Option.map_none])]
        exact ih hfind hhead
      | some e' =>
        rw [List.map_cons, List.filterMap_cons_some hx', List.head?_cons] at hhead
        cases hhead
        exact absurd (hinj _ hx') hx

theorem filterMap_asked_electionQueries {β : Type} {slot : ContextState Hash AccountId Args → β}
    {ask : ChainView Hash AccountId → Option Hash → β} (hk : IsSlot id slot ask) :
    ((electionQueries e).map (·, t)).filterMap (asked id) = [(e, t)] := by
  have hmap := congrArg (List.map (·, t)) (hk.electionQueries e)
  rwa [List.map_filterMap, List.map_singleton, ← Function.comp_def, ← List.filterMap_map] at hmap

end

variable [DecidableEq AccountId] {node : Node Hash AccountId} {l : LiveResult Hash AccountId Args}

/-- A reply that arrives is for the oldest query of its kind. -/
def InOrder (l : LiveResult Hash AccountId Args) : LiveEvent Hash AccountId → Prop
  | .reply query _ => Client.InOrder l.page (.reply query)
  | _ => True

instance : (ev : LiveEvent Hash AccountId) → Decidable (InOrder l ev)
  | .reply query _ => inferInstanceAs (Decidable (Client.InOrder l.page (.reply query)))
  | .block _ | .select _ => .isTrue trivial

/-- The queries with their times are those of the page. -/
structure Timed (l : LiveResult Hash AccountId Args) : Prop where
  sent : l.sent.map Prod.fst = l.page.outstanding
  since : l.since ≤ l.log.length

/-- The slot has been read for the selected election since its selection, or the last query of the
kind is for that. -/
def Recent {β : Type} (node : Node Hash AccountId) (id : Query Hash → Option (Option Hash))
    (slot : ContextState Hash AccountId Args → β)
    (ask : ChainView Hash AccountId → Option Hash → β) (l : LiveResult Hash AccountId Args) :
    Prop :=
  (l.sent.filterMap (asked id)).getLast? = some (l.page.electionId, l.since) ∨
    l.sent.filterMap (asked id) = [] ∧ ∃ n, l.since ≤ n ∧ n ≤ l.log.length ∧
      slot l.page.context = ask (node.view (l.log.take n)) l.page.electionId

theorem Timed.step (ht : Timed l) (ev : LiveEvent Hash AccountId) :
    Timed (LiveResult.step node ev l).2 := by
  cases ev with
  | block x =>
    refine ⟨ht.sent, ht.since.trans ?_⟩
    rw [LiveResult.step, List.length_append]
    exact Nat.le_add_right _ _
  | select electionId =>
    rw [LiveResult.step]
    split
    · exact ht
    · rename_i hne
      refine ⟨?_, le_rfl⟩
      rw [ElectionResult.step, if_neg hne, List.map_append, ht.sent, List.map_map]
      exact congrArg _ (List.map_id _)
  | reply query n =>
    rw [LiveResult.step]
    split
    · exact ht
    · rename_i q t hfind
      split
      · refine ⟨?_, ht.since⟩
        obtain rfl : q = query := by simpa using List.find?_some hfind
        have hmem : q ∈ l.page.outstanding := by
          rw [← ht.sent]
          exact List.mem_map_of_mem (List.mem_of_find?_eq_some hfind)
        rw [ElectionResult.step, if_pos hmem]
        exact (map_erase_of_find? hfind).trans (congrArg (List.erase · q) ht.sent)
      · exact ht

theorem Recent.step {β : Type} {id : Query Hash → Option (Option Hash)}
    {slot : ContextState Hash AccountId Args → β} {ask : ChainView Hash AccountId → Option Hash → β}
    (hk : IsSlot id slot ask) (ht : Timed l) (hr : Recent node id slot ask l)
    {ev : LiveEvent Hash AccountId} (hev : InOrder l ev) :
    Recent node id slot ask (LiveResult.step node ev l).2 := by
  cases ev with
  | block x =>
    refine hr.imp_right fun ⟨hnil, n, hsince, hn, hslot⟩ => ⟨hnil, n, hsince, ?_, ?_⟩
    · rw [LiveResult.step, List.length_append]
      exact hn.trans (Nat.le_add_right _ _)
    · rw [LiveResult.step, List.take_append_of_le_length hn]
      exact hslot
  | select electionId =>
    rw [LiveResult.step]
    split
    · exact hr
    · rename_i hne
      refine .inl ?_
      rw [ElectionResult.step, if_neg hne, List.filterMap_append,
        filterMap_asked_electionQueries hk, List.getLast?_concat]
  | reply query n =>
    rw [LiveResult.step]
    split
    · exact hr
    · rename_i q t hfind
      split
      · rename_i hn
        obtain rfl : q = query := by simpa using List.find?_some hfind
        have hmem : q ∈ l.page.outstanding := by
          rw [← ht.sent]
          exact List.mem_map_of_mem (List.mem_of_find?_eq_some hfind)
        rw [ElectionResult.step, if_pos hmem]
        cases hid : id q with
        | none =>
          have hasked : asked id (q, t) = none := by rw [asked, hid, Option.map_none]
          rw [Recent, filterMap_erase_of_none hasked, hk.keeps _ _ _ hid]
          exact hr
        | some e =>
          have hinj (q' : Query Hash) (h : id q' = some e) : q' = q := hk.inj q' q e h hid
          have hhead := hev hmem id hk.mem (by rw [hid]; rfl)
          rw [← ht.sent, hid] at hhead
          have hasked (x : Query Hash × Nat) (h : asked id x = some (e, t)) : x = (q, t) := by
            obtain ⟨e', he', heq⟩ := Option.map_eq_some_iff.mp h
            cases heq
            exact Prod.ext (hinj _ he') rfl
          have herase := filterMap_erase_of_head hasked (head?_asked hid hinj hfind hhead)
          rw [Recent, ← herase] at hr
          rcases hr with hlast | ⟨hnil, _⟩
          · cases hrest : (l.sent.erase (q, t)).filterMap (asked id) with
            | nil =>
              rw [hrest] at hlast
              cases hlast
              exact .inr ⟨hrest, n, hn.1, hn.2, hk.fills _ _ _ _ hid⟩
            | cons x rest =>
              refine .inl ?_
              rw [hrest, List.getLast?_cons_cons, ← hrest] at hlast
              exact hlast
          · cases hnil
      · exact hr

/-! ## Runs -/

section
variable {log : List (Extrinsic Hash AccountId)} {context : ContextState Hash AccountId Args}
  {pending : List (Query Hash × Nat)} {evs : List (LiveEvent Hash AccountId)}

/-- The page and the chain after the events. -/
abbrev liveResult (node : Node Hash AccountId) (log : List (Extrinsic Hash AccountId))
    (context : ContextState Hash AccountId Args) (pending : List (Query Hash × Nat))
    (evs : List (LiveEvent Hash AccountId)) : LiveResult Hash AccountId Args :=
  finalState (step node) (mount log context pending) evs

theorem timed_run : Timed (liveResult node log context pending evs) :=
  finalState_induction ⟨List.map_append, le_rfl⟩ (fun _ ev ht => ht.step ev) evs

theorem recent_run {β : Type} {id : Query Hash → Option (Option Hash)}
    {slot : ContextState Hash AccountId Args → β} {ask : ChainView Hash AccountId → Option Hash → β}
    (hk : IsSlot id slot ask)
    (hevs : EachStep (step node) InOrder (mount log context pending) evs) :
    Recent node id slot ask (liveResult node log context pending evs) := by
  induction evs using List.reverseRecOn with
  | nil =>
    refine .inl ?_
    rw [liveResult, finalState_nil, mount, List.filterMap_append,
      filterMap_asked_electionQueries hk, List.getLast?_concat]
    rfl
  | append_singleton evs ev ih =>
    obtain ⟨hevs, hev⟩ := eachStep_concat.mp hevs
    rw [liveResult, finalState_concat]
    exact (ih hevs).step hk timed_run hev

/-- With nothing outstanding a slot has been read since the selection. -/
theorem Recent.exists_slot {β : Type} {id : Query Hash → Option (Option Hash)}
    {slot : ContextState Hash AccountId Args → β} {ask : ChainView Hash AccountId → Option Hash → β}
    (hr : Recent node id slot ask l) (ht : Timed l) (hquiet : l.page.outstanding = []) :
    ∃ n, l.since ≤ n ∧ n ≤ l.log.length ∧
      slot l.page.context = ask (node.view (l.log.take n)) l.page.electionId := by
  have hsent : l.sent = [] := List.map_eq_nil_iff.mp (ht.sent.trans hquiet)
  refine (hr.resolve_left ?_).2
  rw [hsent]
  exact nofun

end

/-! ## What the counts are -/

/-- The page shows stored candidates of the election, among them all that were stored when it was
selected, with counts between those at the selection and those of now. -/
structure ShowsBetween (node : Node Hash AccountId) (l : LiveResult Hash AccountId Args)
    (e : Hash) : Prop where
  stored : ∀ cand ∈ l.page.context.candidates, (run node.T l.log).StoresFor cand.key e
  complete : ∀ k, (run node.T (l.log.take l.since)).StoresFor k e →
    k ∈ l.page.context.candidates.map SelectOption.key
  cells : ∀ cand ∈ l.page.context.candidates,
    (ballotBox node.T (l.log.take l.since)).votesFor e cand.key ≤
      votesCell l.page.context.votes cand ∧
    votesCell l.page.context.votes cand ≤ (ballotBox node.T l.log).votesFor e cand.key
  total : (ballotBox node.T (l.log.take l.since)).turnout e ≤ totalCell l.page.context.votes ∧
    totalCell l.page.context.votes ≤ (ballotBox node.T l.log).turnout e
  rows : (l.page.context.candidates.map (votesCell l.page.context.votes)).sum ≤
    totalCell l.page.context.votes

/-- The page shows the counts of now, whatever comes next, and the rows add up to the total. -/
structure ShowsFinal (node : Node Hash AccountId) (l : LiveResult Hash AccountId Args)
    (e : Hash) : Prop where
  cells : ∀ cand ∈ l.page.context.candidates, ∀ rest,
    votesCell l.page.context.votes cand = (ballotBox node.T (l.log ++ rest)).votesFor e cand.key
  total : ∀ rest,
    totalCell l.page.context.votes = (ballotBox node.T (l.log ++ rest)).turnout e
  rows : (l.page.context.candidates.map (votesCell l.page.context.votes)).sum =
    totalCell l.page.context.votes

/-- The slots of the page were read from the chain of some times since the selection. -/
structure ReadSince (node : Node Hash AccountId) (l : LiveResult Hash AccountId Args) (e : Hash)
    (n m : Nat) : Prop where
  since_le : l.since ≤ n ∧ l.since ≤ m
  candidates : l.page.context.candidates = fetchCandidates node.toHuman
    (node.entries (run node.T (l.log.take n)).candidates) e
  votes : l.page.context.votes = fetchVotes (run node.T (l.log.take m)).electionVotes e

namespace ReadSince

variable {e : Hash} {n m : Nat}

theorem mem_candidates (h : ReadSince node l e n m) {k : Hash} :
    k ∈ l.page.context.candidates.map SelectOption.key ↔
      (run node.T (l.log.take n)).StoresFor k e := by
  rw [h.candidates]
  constructor
  · intro hk
    obtain ⟨cand, hcand, rfl⟩ := List.mem_map.mp hk
    obtain ⟨k, x, hx, he, rfl⟩ := (mem_fetchCandidates (node.enumerates _)).mp hcand
    exact ⟨x, hx, he⟩
  · rintro ⟨x, hx, he⟩
    exact List.mem_map.mpr
      ⟨_, (mem_fetchCandidates (node.enumerates _)).mpr ⟨k, x, hx, he, rfl⟩, rfl⟩

theorem votesCell_eq (h : ReadSince node l e n m) (hd : Disciplined node.T l.log)
    (cand : SelectOption Hash) : votesCell l.page.context.votes cand =
      (ballotBox node.T (l.log.take m)).votesFor e cand.key := by
  rw [h.votes]
  exact (hd.represents (List.take_prefix ..)).votesCell_eq wellFormed_run

theorem totalCell_eq (h : ReadSince node l e n m) (hd : Disciplined node.T l.log) :
    totalCell l.page.context.votes = (ballotBox node.T (l.log.take m)).turnout e := by
  rw [h.votes]
  exact (hd.represents (List.take_prefix ..)).totalCell_eq wellFormed_run

theorem nodup_keys (h : ReadSince node l e n m) :
    (l.page.context.candidates.map SelectOption.key).Nodup := by
  rw [h.candidates]
  exact nodup_keys_fetchCandidates (node.enumerates _)

theorem showsBetween (h : ReadSince node l e n m) (hd : Disciplined node.T l.log) :
    ShowsBetween node l e where
  stored cand hcand :=
    hd.storesFor (List.take_prefix ..) List.prefix_rfl
      (h.mem_candidates.mp (List.mem_map_of_mem hcand))
  complete k hk :=
    h.mem_candidates.mpr (hd.storesFor (List.take_prefix_take_left h.since_le.1)
      (List.take_prefix ..) hk)
  cells cand _ := by
    rw [h.votesCell_eq hd]
    exact ⟨(lasts_ballotBox (List.take_prefix_take_left h.since_le.2)).votesFor_le e cand.key,
      (lasts_ballotBox (List.take_prefix ..)).votesFor_le e cand.key⟩
  total := by
    rw [h.totalCell_eq hd]
    exact ⟨(lasts_ballotBox (List.take_prefix_take_left h.since_le.2)).turnout_le e,
      (lasts_ballotBox (List.take_prefix ..)).turnout_le e⟩
  rows := by
    cases hvotes : l.page.context.votes with
    | none =>
      have hzero : votesCell (none : Option (List (Vote Hash AccountId))) = fun _ => 0 := rfl
      simp [hzero, totalCell]
    | some votes =>
      have hsum : ((l.page.context.candidates.map SelectOption.key).map fun k =>
          (votes.filter fun x => x.candidateId = k).length).sum ≤ votes.length :=
        sum_length_filter_le h.nodup_keys
      rwa [List.map_map] at hsum

theorem showsFinal (h : ReadSince node l e n m) (hd : Disciplined node.T l.log)
    (hclosed : ((run node.T (l.log.take l.since)).elections.get e).map Election.isOpen =
      some false) : ShowsFinal node l e := by
  rw [(hd.represents (List.take_prefix ..)).isOpen] at hclosed
  have hsince : (ballotBox node.T (l.log.take l.since)).Lasts (ballotBox node.T (l.log.take m)) :=
    lasts_ballotBox (List.take_prefix_take_left h.since_le.2)
  have hnow (rest : List (Extrinsic Hash AccountId)) :=
    lasts_ballotBox (T := node.T) ((List.take_prefix m l.log).trans (List.prefix_append _ rest))
  have hcells (cand : SelectOption Hash) (rest : List (Extrinsic Hash AccountId)) :
      votesCell l.page.context.votes cand =
        (ballotBox node.T (l.log ++ rest)).votesFor e cand.key := by
    rw [h.votesCell_eq hd, (hnow rest).votesFor_eq (hsince.closed hclosed)]
  have htotal (rest : List (Extrinsic Hash AccountId)) : totalCell l.page.context.votes =
      (ballotBox node.T (l.log ++ rest)).turnout e := by
    rw [h.totalCell_eq hd, (hnow rest).turnout_eq (hsince.closed hclosed)]
  refine ⟨fun cand _ => hcells cand, htotal, ?_⟩
  -- whose choice was read had it when the election was selected, and the candidate is shown
  have hkeys : ∀ a k, (ballotBox node.T (l.log.take m)).choice e a = some k →
      k ∈ l.page.context.candidates.map SelectOption.key := by
    intro a k hk
    have hruns := (lasts_ballotBox (List.take_prefix_take_left h.since_le.1)).runsIn
      ((ballotBox node.T _).runs (hsince.choice_closed hclosed hk))
    exact h.mem_candidates.mpr ((hd.represents (List.take_prefix ..)).storesFor_iff.mpr hruns)
  have hsum := BallotBox.sum_votesFor h.nodup_keys hkeys
  rw [h.totalCell_eq hd, ← hsum, List.map_map]
  exact congrArg List.sum (List.map_congr_left fun cand _ => h.votesCell_eq hd cand)

end ReadSince

/-! ## The result page -/

/-- A node of the mock runtime, which lists entries in some order. -/
noncomputable def mockNode : Node (List UInt8) Nat where
  T := Mock.config
  toHuman _ := ""
  entries m := (StorageMap.exists_enumerates m).choose
  enumerates m := (StorageMap.exists_enumerates m).choose_spec
  blankVotes := none

/-- An election with a candidate. -/
def mockLog : List (Extrinsic (List UInt8) Nat) :=
  [⟨.root, .createElection Mock.board⟩, ⟨.root, .createCandidate Mock.name Mock.boardId⟩]

section
variable (node : Node Hash AccountId) (log : List (Extrinsic Hash AccountId))
  (context : ContextState Hash AccountId Args) (pending : List (Query Hash × Nat))
  (evs : List (LiveEvent Hash AccountId))

theorem exists_readSince (hevs : EachStep (step node) InOrder (mount log context pending) evs)
    (hquiet : (liveResult node log context pending evs).page.outstanding = []) {e : Hash}
    (he : (liveResult node log context pending evs).page.electionId = some e) :
    ∃ n m, ReadSince node (liveResult node log context pending evs) e n m := by
  obtain ⟨n, hn, _, hcandidates⟩ :=
    (recent_run isSlot_candidates hevs).exists_slot timed_run hquiet
  obtain ⟨m, hm, _, hvotes⟩ := (recent_run isSlot_votes hevs).exists_slot timed_run hquiet
  rw [he] at hcandidates hvotes
  exact ⟨n, m, ⟨hn, hm⟩, hcandidates, hvotes⟩

/-- If no call deviates and the replies of each kind come in order, then a page with nothing
outstanding shows the selected election as it was at some time between its selection and now. -/
theorem liveResult_between (hevs : EachStep (step node) InOrder (mount log context pending) evs)
    (hd : Disciplined node.T (liveResult node log context pending evs).log)
    (hquiet : (liveResult node log context pending evs).page.outstanding = []) (e : Hash)
    (he : (liveResult node log context pending evs).page.electionId = some e) :
    ShowsBetween node (liveResult node log context pending evs) e := by
  obtain ⟨n, m, hread⟩ := exists_readSince node log context pending evs hevs hquiet he
  exact hread.showsBetween hd

/-- A vote is dispatched between the two replies. -/
theorem liveResult_between_mock :
    let evs : List (LiveEvent (List UInt8) Nat) := [.select Mock.boardId,
      .reply (.votes none) 2, .reply (.candidates none) 2,
      .reply (.candidates (some Mock.boardId)) 2,
      .block ⟨.signed 1, .createVote Mock.boardCandidate Mock.boardId⟩,
      .reply (.votes (some Mock.boardId)) 3]
    let context : ContextState (List UInt8) Nat Unit := initialState
    ShowsBetween mockNode (liveResult mockNode mockLog context [] evs) Mock.boardId :=
  liveResult_between mockNode mockLog initialState [] _ (by decide) (by decide) (by decide) _
    (by decide)

/-- If the election was closed when it was selected, the page shows the final result. -/
theorem liveResult_final (hevs : EachStep (step node) InOrder (mount log context pending) evs)
    (hd : Disciplined node.T (liveResult node log context pending evs).log)
    (hquiet : (liveResult node log context pending evs).page.outstanding = []) (e : Hash)
    (he : (liveResult node log context pending evs).page.electionId = some e)
    (hclosed : ((run node.T ((liveResult node log context pending evs).log.take
      (liveResult node log context pending evs).since)).elections.get e).map Election.isOpen =
        some false) :
    ShowsFinal node (liveResult node log context pending evs) e := by
  obtain ⟨n, m, hread⟩ := exists_readSince node log context pending evs hevs hquiet he
  exact hread.showsFinal hd hclosed

/-- The election is closed before it is selected. -/
theorem liveResult_final_mock :
    let log := mockLog ++ [⟨.signed 1, .createVote Mock.boardCandidate Mock.boardId⟩,
      ⟨.root, .closeElection Mock.boardId⟩]
    let evs : List (LiveEvent (List UInt8) Nat) := [.select Mock.boardId,
      .reply (.votes none) 4, .reply (.candidates none) 4,
      .block ⟨.root, .createElection Mock.council⟩,
      .reply (.candidates (some Mock.boardId)) 4, .reply (.votes (some Mock.boardId)) 5]
    let context : ContextState (List UInt8) Nat Unit := initialState
    ShowsFinal mockNode (liveResult mockNode log context [] evs) Mock.boardId :=
  liveResult_final mockNode _ initialState [] _ (by decide) (by decide) (by decide) _ (by decide)
    (by decide)

end

end LiveResult

end Votechain.Client
