import RobotMaze.Campaign
import RobotMaze.Main
import RobotMaze.Proofs.Account
import RobotMaze.Proofs.Animation
import RobotMaze.Proofs.Campaign.ByHand
import RobotMaze.Proofs.Campaign.History
import RobotMaze.Proofs.Campaign.InTurn
import RobotMaze.Proofs.Campaign.Log
import RobotMaze.Proofs.Campaign.Refusal
import RobotMaze.Proofs.Catalog
import RobotMaze.Proofs.Check
import RobotMaze.Proofs.Distance
import RobotMaze.Proofs.Fence
import RobotMaze.Proofs.Idle
import RobotMaze.Proofs.Language
import RobotMaze.Proofs.Loading
import RobotMaze.Proofs.Locality
import RobotMaze.Proofs.Outcome
import RobotMaze.Proofs.Paths
import RobotMaze.Proofs.Preparation
import RobotMaze.Proofs.Replay.Cancellation
import RobotMaze.Proofs.Replay.Cursor
import RobotMaze.Proofs.Replay.Delivery
import RobotMaze.Proofs.Replay.Indifference
import RobotMaze.Proofs.Replay.Passes
import RobotMaze.Proofs.Resumption
import RobotMaze.Proofs.Return
import RobotMaze.Proofs.Selection
import RobotMaze.Proofs.Symmetry
import RobotMaze.Proofs.Turning
import RobotMaze.Proofs.WordSize
import RobotMaze.Replay.Cursor
import RobotMaze.Replay.Session
import RobotMaze.Storage.Folder
