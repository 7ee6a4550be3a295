import PyTcp.Address
import PyTcp.Dict
import PyTcp.Icmp6
import PyTcp.NdCache
import PyTcp.CacheRun
import PyTcp.CacheRefresh
import PyTcp.PacketHandler
import PyTcp.TwoStacks
import PyTcp.DadEvent
import PyTcp.Emission
import PyTcp.CacheKeys
import PyTcp.SweepRace
import PyTcp.Dhcp4Client
import PyTcp.Struct
import PyTcp.Ip6Address
import PyTcp.MaskText
import PyTcp.NetworkText
import PyTcp.Regex
import PyTcp.AddressText
import PyTcp.ArpAssembler
import PyTcp.TcpAssembler
import PyTcp.Link
import PyTcp.Ip6RxRun
