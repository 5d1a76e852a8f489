import AfXdpSwitch.SpscRing
import AfXdpSwitch.Hoare
import AfXdpSwitch.XskRing
import AfXdpSwitch.ByteMemory
import AfXdpSwitch.FramePool
import AfXdpSwitch.XskSocket
import AfXdpSwitch.ProcessPacket
import AfXdpSwitch.HandleReceive
import AfXdpSwitch.XskKernel
import AfXdpSwitch.Refill
import AfXdpSwitch.PacketLoop
import AfXdpSwitch.ReceiveCall
import AfXdpSwitch.ConfigureSocket
import AfXdpSwitch.FrameOwnership
import AfXdpSwitch.ReceiveOrder
import AfXdpSwitch.OnePacket
import AfXdpSwitch.TransmitAccounting
import AfXdpSwitch.RefillBound
import AfXdpSwitch.RefillRetry
import AfXdpSwitch.UserDavid
import AfXdpSwitch.RewriteHelpers
import AfXdpSwitch.SlotLane
import AfXdpSwitch.XdpSocket
import AfXdpSwitch.XdpPort
import AfXdpSwitch.ForwardFrames
import AfXdpSwitch.ForwardStep
import AfXdpSwitch.TwoPorts
import AfXdpSwitch.HardwareAddr
import AfXdpSwitch.Switch
import AfXdpSwitch.SwitchBi
import AfXdpSwitch.SwitchBiOriginal
import AfXdpSwitch.SwitchBiChan
import AfXdpSwitch.PacketAccess
import AfXdpSwitch.ParsingHelpers
import AfXdpSwitch.OnesComplement
import AfXdpSwitch.IcmpEcho
import AfXdpSwitch.XdpStats
import AfXdpSwitch.PacketParsing
import AfXdpSwitch.ParserVerdict
import AfXdpSwitch.PacketRewriting
import AfXdpSwitch.PortRewrite
import AfXdpSwitch.EchoReply
import AfXdpSwitch.ChecksumUpdate
import AfXdpSwitch.XdpIcmpEcho
import AfXdpSwitch.XdpRedirect
import AfXdpSwitch.XdpRouter
import AfXdpSwitch.StatsConservation
import AfXdpSwitch.StatsPoll
import AfXdpSwitch.RedirectSetup
import AfXdpSwitch.QueueRegistration
import AfXdpSwitch.CmdlineOptions
import AfXdpSwitch.MacGrammar
import AfXdpSwitch.BpfMachine
import AfXdpSwitch.DefaultProgram
import AfXdpSwitch.ResourceLedger
import AfXdpSwitch.XskLifecycle
import AfXdpSwitch.XskAccounting
import AfXdpSwitch.SharedUmem
import AfXdpSwitch.SocketPoll
import AfXdpSwitch.PrintLoop
import AfXdpSwitch.Rebroadcast
import AfXdpSwitch.SendUdp
import AfXdpSwitch.SockProg
import AfXdpSwitch.NetlinkAttr
import AfXdpSwitch.NetlinkLink
import AfXdpSwitch.NetlinkDump
import AfXdpSwitch.LinkXdpId
import AfXdpSwitch.EchoAgreement
import AfXdpSwitch.VlanSwap
import AfXdpSwitch.NetlinkBounds
import AfXdpSwitch.SocketLifecycle
import AfXdpSwitch.LinkAttach
import AfXdpSwitch.AttachRuns
