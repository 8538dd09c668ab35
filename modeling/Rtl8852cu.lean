import Rtl8852cu.Rx.Order
import Rtl8852cu.Crypto.Michael
import Rtl8852cu.Rx.Ownership
import Rtl8852cu.Usb.Predict
import Rtl8852cu.Recv.Balance
import Rtl8852cu.Dispr.Registry
import Rtl8852cu.Dispr.Handles
import Rtl8852cu.Dispr.Clearance
import Rtl8852cu.Dispr.Operations
import Rtl8852cu.Trx.RxQueue
import Rtl8852cu.Usb.Custody
import Rtl8852cu.Trx.FlowRound
import Rtl8852cu.Sta.Bmc
import Rtl8852cu.Hal.CsiLive
import Rtl8852cu.Ofld.Held
import Rtl8852cu.Mcc.Period
import Rtl8852cu.Efuse.Process
import Rtl8852cu.Efuse.Torn
import Rtl8852cu.Role.Multicast
import Rtl8852cu.Role.CamMirror
import Rtl8852cu.Role.KeyMatch
import Rtl8852cu.P2pps.NoaRuns
import Rtl8852cu.Twt.Runs
import Rtl8852cu.Mr.RxFilterRuns
import Rtl8852cu.H2c.AggRuns
import Rtl8852cu.Fwofld.IdRuns
import Rtl8852cu.Fwofld.Answers
import Rtl8852cu.Fwofld.RequestRuns
import Rtl8852cu.Mesh.Airtime
import Rtl8852cu.Mesh.PathCount
import Rtl8852cu.Br.Nat25Runs
import Rtl8852cu.Hal.MonMode
import Rtl8852cu.Mesh.DiscoveryRuns
import Rtl8852cu.Rx.PhyStsOrder
import Rtl8852cu.Rx.DrainRuns
import Rtl8852cu.Rx.ReleasePrefix
import Rtl8852cu.Trial.Histories
import Rtl8852cu.Scan.RoundRuns
import Rtl8852cu.Xmit.FragmentRuns
import Rtl8852cu.Stainfo.PoolRuns
import Rtl8852cu.Scan.EndRuns
import Rtl8852cu.Twt.Element
import Rtl8852cu.Efuse.ParserBounds
import Rtl8852cu.Twt.WakeTime
import Rtl8852cu.Recv.Amsdu
import Rtl8852cu.Mcc.Durations
import Rtl8852cu.Mcc.BtRange
import Rtl8852cu.Recv.Plaintext
import Rtl8852cu.Ps.RequestRuns
import Rtl8852cu.Br.ClientTx
import Rtl8852cu.Br.NdOption
import Rtl8852cu.Fwdl.WriteMemory
import Rtl8852cu.Fwofld.CmdOfld
import Rtl8852cu.Rx.BaSession
import Rtl8852cu.Fwdl.WlanfwCap
import Rtl8852cu.Chan.Chanctx
import Rtl8852cu.Chan.Ecsa
import Rtl8852cu.Usb.SingleRx
