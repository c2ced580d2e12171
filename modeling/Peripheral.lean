import Peripheral.Discovery.Schedule
import Peripheral.Main
import Peripheral.Proofs.Address.Numbers
import Peripheral.Proofs.Device.Configured
import Peripheral.Proofs.Device.Refusals
import Peripheral.Proofs.Discovery.Combined
import Peripheral.Proofs.Discovery.Schedule
import Peripheral.Proofs.Discovery.Shutdown
import Peripheral.Proofs.Ftdi.Claims
import Peripheral.Proofs.Ftdi.Stream
import Peripheral.Proofs.Json.RoundTrip
import Peripheral.Proofs.Pattern
import Peripheral.Proofs.Reopen
import Peripheral.Proofs.Scan.Schedule
import Peripheral.Proofs.Subnet.Members
import Peripheral.Proofs.Usb.Partition
import Peripheral.Usb.Record
import Peripheral.Proofs.Usb.Claims
import Peripheral.Proofs.Http.Session
import Peripheral.Proofs.Net.Socket
import Peripheral.Proofs.Device.Lifecycle
import Peripheral.Proofs.Scan.Events
import Peripheral.Proofs.Text.Utf8
import Peripheral.Proofs.Toml.Quotes
import Peripheral.Proofs.Toml.Scalar
import Peripheral.Proofs.Toml.RoundTrip
import Peripheral.Proofs.Settings
import Peripheral.Proofs.Net.History
import Peripheral.Proofs.Net.Identity
import Peripheral.Proofs.Discovery.Overlap
import Peripheral.Proofs.Ftdi.Buffers
import Peripheral.Proofs.Ftdi.Addresses
import Peripheral.Proofs.Address.Spelling
import Peripheral.Proofs.Criteria.Selection
import Peripheral.Proofs.Criteria.Copies
import Peripheral.Proofs.Mac.Spelling
import Peripheral.Proofs.Text.Layout
import Peripheral.Proofs.Address.Canonical
import Peripheral.Proofs.Neighbor.Keyword
import Peripheral.Proofs.Neighbor.Groups
import Peripheral.Proofs.CommandLine.Usb
import Peripheral.Proofs.Neighbor.Sentence
import Peripheral.Proofs.Http.Outcome
import Peripheral.Proofs.Http.Resource
import Peripheral.Proofs.Discovery.Repeats
import Peripheral.Proofs.Usb.Recognition
import Peripheral.Proofs.Neighbor.Table
import Peripheral.Proofs.Resolver
