import Handheld.FlatMemory
import Handheld.System.Round
import Handheld.Text.PlaceName
import Handheld.Main
import Handheld.Proofs.Independence.Reset
import Handheld.Proofs.IllegalOpcode
import Handheld.Proofs.Hardware.Update
import Handheld.Proofs.Call
import Handheld.Proofs.Ranges
import Handheld.Proofs.Modes
import Handheld.Proofs.LineClock
import Handheld.Proofs.Stack
import Handheld.Proofs.Requests
import Handheld.Proofs.BankedMemory
import Handheld.Proofs.BankSelection
import Handheld.Proofs.CartridgeRam
import Handheld.Proofs.BootImage
import Handheld.Proofs.HalfBytes
import Handheld.Proofs.CommandWindow
import Handheld.Proofs.RunLoop
import Handheld.Proofs.Frames
import Handheld.Proofs.Simulation.WorkRam
import Handheld.Proofs.Dump
import Handheld.Proofs.Decoding
import Handheld.Proofs.Coverage
import Handheld.Proofs.FixedOrigins
import Handheld.Proofs.Origins
import Handheld.Proofs.SerialLog
import Handheld.Proofs.Reboot
import Handheld.Proofs.AddressDecoder
import Handheld.Proofs.ReadOnly
import Handheld.Proofs.Chunks
import Handheld.Proofs.Decimal
import Handheld.Proofs.Dispatch
import Handheld.Proofs.Idling
import Handheld.Proofs.WordArithmetic
import Handheld.Proofs.Pointers
import Handheld.Proofs.InstructionBytes
import Handheld.Proofs.Device.Counting
import Handheld.Proofs.Device.Rounds
import Handheld.Proofs.Transfer
import Handheld.Proofs.SpriteCopy
import Handheld.Proofs.Palettes
import Handheld.Proofs.VideoCopy
import Handheld.Proofs.SectorReads
import Handheld.Proofs.BankStamps
import Handheld.Proofs.BusCopies
import Handheld.Proofs.RomImage
import Handheld.Proofs.ControllerCheck
import Handheld.Proofs.Arguments
