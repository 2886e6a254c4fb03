import DigestFinder.Interchange
import DigestFinder.Main
import DigestFinder.Text.Json.Number
import DigestFinder.Proofs.Crc.Bits
import DigestFinder.Proofs.Crc.Orientation
import DigestFinder.Proofs.Crc.Register
import DigestFinder.Proofs.Crc.TableStep
import DigestFinder.Proofs.BigEndian
import DigestFinder.Proofs.Crc.Division
import DigestFinder.Proofs.Crc.Simulation
import DigestFinder.Proofs.Search.Lowest
import DigestFinder.Proofs.Search.Solutions
import DigestFinder.Proofs.Search.History
import DigestFinder.Proofs.Search.Enumeration
import DigestFinder.Proofs.Search.Schedule
import DigestFinder.Proofs.Text.LetterCase
import DigestFinder.Proofs.Text.Blank
import DigestFinder.Proofs.Comparison
import DigestFinder.Proofs.Algorithm
import DigestFinder.Proofs.Checksum.Adler
import DigestFinder.Proofs.Streaming
import DigestFinder.Proofs.Crc.ModelText
import DigestFinder.Proofs.Crc.Spelling
import DigestFinder.Proofs.Registry
import DigestFinder.Proofs.Search.Ascending
import DigestFinder.Proofs.Search.Counting
import DigestFinder.Proofs.Search.Events
import DigestFinder.Proofs.Search.AscendingEvents
import DigestFinder.Proofs.Search.ExpectedForm
import DigestFinder.Proofs.WrittenForm
import DigestFinder.Proofs.CommandLine.Channels
import DigestFinder.Proofs.CommandLine.EventLines
import DigestFinder.Proofs.Text.ByteOrder
import DigestFinder.Proofs.Search.Reports
import DigestFinder.Proofs.Search.Blocks
import DigestFinder.Proofs.Search.Composition
import DigestFinder.Proofs.Search.Failing
import DigestFinder.Proofs.Crc.LengthBytes
import DigestFinder.Proofs.Crc.Mirror
import DigestFinder.Proofs.Text.Numerals
import DigestFinder.Proofs.Crc.Grammar
import DigestFinder.Proofs.Crc.Recognition
import DigestFinder.Proofs.Catalogue
import DigestFinder.Proofs.Checksum.RunningSum
import DigestFinder.Proofs.Checksum.Carries
import DigestFinder.Proofs.Text.Decoding
import DigestFinder.Proofs.Sequence
import DigestFinder.Proofs.Insertions
import DigestFinder.Proofs.Resolution
import DigestFinder.Proofs.Text.FieldOrder
import DigestFinder.Proofs.Search.IdOrder
import DigestFinder.Proofs.Search.Lookup
import DigestFinder.Proofs.Search.Coverage
import DigestFinder.Proofs.Search.Progress
import DigestFinder.Proofs.Checksum.Castagnoli
import DigestFinder.Proofs.Crc.TableEntries
