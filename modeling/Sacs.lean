import Sacs.Callbacks
import Sacs.Replay
import Sacs.Replies
import Sacs.Startup
import Sacs.Browser
import Sacs.Network
import Sacs.Faults
import Sacs.Values
import Sacs.Wrapper
import Sacs.Isolation
import Sacs.Android
import Sacs.MsgThread
import Sacs.Activation
import Sacs.Routing
import Sacs.Convergence
import Sacs.Pointers
import Sacs.Loading
import Sacs.Watching
import Sacs.Aliasing
import Sacs.Marshalling
import Sacs.TabBar
import Sacs.Broadcast
import Sacs.Identity
import Sacs.Saving
import Sacs.Messenger
import Sacs.JavaGlue
import Sacs.Lib.Rank
import Sacs.Work
import Sacs.Faultless
import Sacs.Settling
import Sacs.Outgoing
import Sacs.Site
import Sacs.Lib.Heap
import Sacs.Memory
import Sacs.Draining
import Sacs.Lib.ModifiedUtf8
import Sacs.JavaStrings
import Sacs.LocalRefs
import Sacs.WebPack
import Sacs.Loader
import Sacs.Reconnecting
import Sacs.Renewal
