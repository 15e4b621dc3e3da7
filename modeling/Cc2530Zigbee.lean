import Cc2530Zigbee.Octets
import Cc2530Zigbee.OctetBits
import Cc2530Zigbee.Flash
import Cc2530Zigbee.Build
import Cc2530Zigbee.MacFrame
import Cc2530Zigbee.MacEpochRuns
import Cc2530Zigbee.MacFrameCodec
import Cc2530Zigbee.MacTx
import Cc2530Zigbee.MacTxMoves
import Cc2530Zigbee.MacTxRuns
import Cc2530Zigbee.MacTxTransactions
import Cc2530Zigbee.MacTxAck
import Cc2530Zigbee.MacTxSpacing
import Cc2530Zigbee.MacTxInterval
import Cc2530Zigbee.MacTxIntervalAck
import Cc2530Zigbee.MacTxObserved
import Cc2530Zigbee.NwkFrame
import Cc2530Zigbee.ApsFrame
import Cc2530Zigbee.ZdoNode
import Cc2530Zigbee.ZdoServer
import Cc2530Zigbee.CcmMode
import Cc2530Zigbee.CcmStar
import Cc2530Zigbee.CcmStarCorrect
import Cc2530Zigbee.KeyHash
import Cc2530Zigbee.EdWire
import Cc2530Zigbee.KeyRecord
import Cc2530Zigbee.NvRecord
import Cc2530Zigbee.NvRecordPages
import Cc2530Zigbee.NvRecordValid
import Cc2530Zigbee.NvRecordAtomic
import Cc2530Zigbee.NvRecordRuns
import Cc2530Zigbee.NvRecordJournal
import Cc2530Zigbee.NvRecordCache
import Cc2530Zigbee.Runs
import Cc2530Zigbee.Ring
import Cc2530Zigbee.RadioQueue
import Cc2530Zigbee.RadioQueueRuns
import Cc2530Zigbee.RadioQueueFifo
import Cc2530Zigbee.SecurityCounter
import Cc2530Zigbee.SecurityCounterLedger
import Cc2530Zigbee.SecurityCounterRuns
import Cc2530Zigbee.SecurityCounterIdle
import Cc2530Zigbee.SecurityKeys
import Cc2530Zigbee.SecurityKeysReceive
import Cc2530Zigbee.SecurityKeysSend
import Cc2530Zigbee.SecurityKeysSteps
import Cc2530Zigbee.SecurityKeysEffects
import Cc2530Zigbee.SecurityKeysPlans
import Cc2530Zigbee.SecurityKeysJournal
import Cc2530Zigbee.SecurityKeysRuns
import Cc2530Zigbee.SecurityKeysIdle
import Cc2530Zigbee.SecurityKeysDurable
import Cc2530Zigbee.SecurityKeysValid
import Cc2530Zigbee.SecurityKeysReplay
import Cc2530Zigbee.NwkApsRecords
import Cc2530Zigbee.NwkApsLifecycle
import Cc2530Zigbee.NwkApsDirect
import Cc2530Zigbee.WrappedClock
import Cc2530Zigbee.ZdoRuntime
import Cc2530Zigbee.ZdoRuntimeLeave
import Cc2530Zigbee.Roster
import Cc2530Zigbee.NwkCandidates
import Cc2530Zigbee.NwkCandidatesTable
import Cc2530Zigbee.MacAssociationRuns
import Cc2530Zigbee.MacTxProgress
import Cc2530Zigbee.LinkWorkspaceLeases
import Cc2530Zigbee.MacAdapterRuns
import Cc2530Zigbee.ZclWire
import Cc2530Zigbee.ZclAttributes
import Cc2530Zigbee.ZclWrite
import Cc2530Zigbee.ZclDispatch
import Cc2530Zigbee.ZclIdentify
import Cc2530Zigbee.ZclTemperature
import Cc2530Zigbee.NwkParent
import Cc2530Zigbee.BitMask
import Cc2530Zigbee.MacScan
import Cc2530Zigbee.MacScanTurns
import Cc2530Zigbee.MacScanRuns
import Cc2530Zigbee.ZclSensor
import Cc2530Zigbee.RecordWalk
import Cc2530Zigbee.ZclSensorRequests
import Cc2530Zigbee.ZclSensorBinding
import Cc2530Zigbee.ZclSensorRuns
import Cc2530Zigbee.ZclSensorDue
import Cc2530Zigbee.ReflectedCrc
import Cc2530Zigbee.NvRecordCrc
import Cc2530Zigbee.StreamTests
import Cc2530Zigbee.NoiseHealth
import Cc2530Zigbee.BlockHash
import Cc2530Zigbee.ZigbeeMmo
import Cc2530Zigbee.BitTable
import Cc2530Zigbee.FlashWrite
import Cc2530Zigbee.FlashWriteOnce
import Cc2530Zigbee.NwkApsCounters
import Cc2530Zigbee.MacLinkDriver
import Cc2530Zigbee.MacLinkDriverGuard
import Cc2530Zigbee.ZdoRuntimeMap
import Cc2530Zigbee.BoundedAccess
import Cc2530Zigbee.ZdoServerReads
import Cc2530Zigbee.ZdoServerReplies
import Cc2530Zigbee.ZdoRuntimeQuery
import Cc2530Zigbee.NwkFrameCodec
import Cc2530Zigbee.ApsFrameCodec
import Cc2530Zigbee.EdWireCodec
import Cc2530Zigbee.EdWireSeal
import Cc2530Zigbee.ZdoNodeCodec
