import Votechain.Theory.StorageMap
import Votechain.Theory.Dispatch
import Votechain.Theory.History
import Votechain.Theory.Rearrangement
import Votechain.Theory.Run
import Votechain.Theory.Refinement
import Votechain.Theory.Projection
import Votechain.Theory.Ledger
import Votechain.Theory.BallotBox
import Votechain.Theory.Text
import Votechain.Pallet.Basic
import Votechain.Pallet.Calls
import Votechain.Pallet.Mock
import Votechain.Client.Context
import Votechain.Client.Reducer
import Votechain.Client.Blocks
import Votechain.Client.BlockScan
import Votechain.Client.ElectionResult
import Votechain.Client.TxButton
import Votechain.Client.TxStatus
import Votechain.Client.Forms
import Votechain.Client.Vote
import Votechain.Client.Substrate
import Votechain.Verify.Effect
import Votechain.Verify.Reachable
import Votechain.Verify.Addressing
import Votechain.Verify.Frames
import Votechain.Verify.Tallies
import Votechain.Verify.Rosters
import Votechain.Verify.Finality
import Votechain.Verify.Replay
import Votechain.Verify.Events
import Votechain.Verify.Eligibility
import Votechain.Verify.Order
import Votechain.Verify.Failures
import Votechain.Verify.Counter
import Votechain.Verify.Conservation
import Votechain.Verify.Sharding
import Votechain.Verify.Refinement
import Votechain.Verify.Voters
import Votechain.Verify.Symmetry
import Votechain.Client.Network
import Votechain.Client.Admin
import Votechain.Client.LiveResult
import Votechain.Verify.Network
import Votechain.Verify.Admin
import Votechain.Verify.LiveResult
import Votechain.Verify.Substrate
