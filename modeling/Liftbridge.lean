import Liftbridge.Metadata.Store
import Liftbridge.Fsm.Apply
import Liftbridge.Fsm.Snapshot
import Liftbridge.Fsm.Epoch
import Liftbridge.Fsm.Recovery
import Liftbridge.Fsm.Replay
import Liftbridge.Fsm.Isolation
import Liftbridge.Commitlog.Segment
import Liftbridge.Commitlog.Waiters
import Liftbridge.Commitlog.Write
import Liftbridge.Commitlog.Scanner
import Liftbridge.Commitlog.Replace
import Liftbridge.Commitlog.Search
import Liftbridge.Commitlog.Read
