import JarCensus.Bytes
import JarCensus.Category
import JarCensus.Census
import JarCensus.Cipher.Aes
import JarCensus.Cipher.Chaining
import JarCensus.Cipher.Sha256
import JarCensus.ClassFile.Annotations
import JarCensus.ClassFile.Checked.Basic
import JarCensus.ClassFile.Checked.Summary
import JarCensus.ClassFile.ConstantPool
import JarCensus.ClassFile.Cursor
import JarCensus.ClassFile.Encoding.Constant
import JarCensus.ClassFile.Encoding.File
import JarCensus.ClassFile.Encoding.Table
import JarCensus.ClassFile.Fault
import JarCensus.ClassFile.Name
import JarCensus.ClassFile.Summary
import JarCensus.CommandLine.Basic
import JarCensus.CommandLine.Grammar
import JarCensus.CommandLine.Reader
import JarCensus.CommandLine.Usage
import JarCensus.Config.Basic
import JarCensus.Config.Document
import JarCensus.Config.Reader
import JarCensus.Decryption.Gate
import JarCensus.Decryption.Key
import JarCensus.Decryption.MarkerRule
import JarCensus.Dependencies
import JarCensus.Entry
import JarCensus.FileSystem.Basic
import JarCensus.FileSystem.Glob.Basic
import JarCensus.FileSystem.Glob.Expression
import JarCensus.FileSystem.Glob.Limit
import JarCensus.FileSystem.Glob.Reader
import JarCensus.FileSystem.Ignore
import JarCensus.FileSystem.Path
import JarCensus.FileSystem.Walk
import JarCensus.Hex
import JarCensus.Json.Fault
import JarCensus.Json.Spelling
import JarCensus.Json.Token
import JarCensus.Json.Value
import JarCensus.Listing
import JarCensus.Listing.Place
import JarCensus.Main
import JarCensus.Program.Basic
import JarCensus.Program.Fault
import JarCensus.Program.Schedule
import JarCensus.Proofs.Census
import JarCensus.Proofs.Census.Views
import JarCensus.Proofs.Cipher.Aes
import JarCensus.Proofs.Cipher.Chaining
import JarCensus.Proofs.ClassFile.Acceptance
import JarCensus.Proofs.ClassFile.Bounds
import JarCensus.Proofs.ClassFile.CheckedText
import JarCensus.Proofs.ClassFile.Confinement
import JarCensus.Proofs.ClassFile.Constants
import JarCensus.Proofs.ClassFile.Containment
import JarCensus.Proofs.ClassFile.Exactness
import JarCensus.Proofs.ClassFile.Faults
import JarCensus.Proofs.ClassFile.Name
import JarCensus.Proofs.ClassFile.Nesting
import JarCensus.Proofs.ClassFile.Numbering
import JarCensus.Proofs.ClassFile.Prefix
import JarCensus.Proofs.ClassFile.TableFaults
import JarCensus.Proofs.ClassFile.Tables
import JarCensus.Proofs.Config.Decryption
import JarCensus.Proofs.Config.Document
import JarCensus.Proofs.Config.Environment
import JarCensus.Proofs.Config.Fields
import JarCensus.Proofs.Config.Records
import JarCensus.Proofs.Config.RoundTrip
import JarCensus.Proofs.Config.Rows
import JarCensus.Proofs.Config.Session
import JarCensus.Proofs.Decryption.Gate
import JarCensus.Proofs.Decryption.Key
import JarCensus.Proofs.Decryption.SealedForms
import JarCensus.Proofs.Decryption.Spelling
import JarCensus.Proofs.Dependencies
import JarCensus.Proofs.FileSystem.Following
import JarCensus.Proofs.FileSystem.Name
import JarCensus.Proofs.FileSystem.Node
import JarCensus.Proofs.FileSystem.Path
import JarCensus.Proofs.FileSystem.Tree
import JarCensus.Proofs.FileSystem.Walk
import JarCensus.Proofs.FileSystem.Writing
import JarCensus.Proofs.Hex
import JarCensus.Proofs.Json.Token
import JarCensus.Proofs.Json.Written
import JarCensus.Proofs.Listing
import JarCensus.Proofs.Listing.Enumeration
import JarCensus.Proofs.Listing.Folder
import JarCensus.Proofs.Listing.Origin
import JarCensus.Proofs.Listing.Place
import JarCensus.Proofs.Listing.Refusal
import JarCensus.Proofs.Program.Provenance
import JarCensus.Proofs.Program.Refusal
import JarCensus.Proofs.Program.Saving
import JarCensus.Proofs.Program.Schedule
import JarCensus.Proofs.Program.Sealing
import JarCensus.Proofs.Report
import JarCensus.Proofs.Session.Handling
import JarCensus.Proofs.Session.OneByOne
import JarCensus.Proofs.Session.Race
import JarCensus.Proofs.Session.Reopening
import JarCensus.Proofs.Session.Run
import JarCensus.Proofs.Session.Settling
import JarCensus.Proofs.Success
import JarCensus.Proofs.Text.ModifiedUtf8
import JarCensus.Proofs.Text.Order
import JarCensus.Proofs.Text.Utf16
import JarCensus.Proofs.Text.Utf8
import JarCensus.Proofs.Zip.Content
import JarCensus.Proofs.Zip.Crc32
import JarCensus.Proofs.Zip.Inflate
import JarCensus.Proofs.Zip.Packing
import JarCensus.Report.Basic
import JarCensus.Report.Written
import JarCensus.Session.Basic
import JarCensus.Session.Failure
import JarCensus.Session.Operation
import JarCensus.Session.Schedule
import JarCensus.Text.Blank
import JarCensus.Text.CodePage437
import JarCensus.Text.ModifiedUtf8
import JarCensus.Text.Quoted
import JarCensus.Text.Split
import JarCensus.Text.Unprintable
import JarCensus.Text.Utf16
import JarCensus.Text.Utf8
import JarCensus.Zip.Archive
import JarCensus.Zip.Content
import JarCensus.Zip.Crc32
import JarCensus.Zip.Directory
import JarCensus.Zip.Fault
import JarCensus.Zip.Inflate
import JarCensus.Zip.Packing
