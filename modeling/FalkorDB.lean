import FalkorDB.Bolt.Buffer
import FalkorDB.Bolt.Flat
import FalkorDB.Bolt.BufferWrite
import FalkorDB.Bolt.BufferRead
import FalkorDB.Bolt.Socket
import FalkorDB.Bolt.State
import FalkorDB.Bolt.Session
import FalkorDB.Bolt.Lifecycle
import FalkorDB.Bolt.Client
import FalkorDB.Bolt.Framing
import FalkorDB.Bolt.WebSocket
import FalkorDB.Bolt.Reset
import FalkorDB.Bolt.ResetSession
import FalkorDB.Bolt.Receive
import FalkorDB.Bolt.Refinement
import FalkorDB.Serializers.Rdb
import FalkorDB.Serializers.SIValue
import FalkorDB.Serializers.DecodeGraphEntities
import FalkorDB.Serializers.DecodeNodesEdges
