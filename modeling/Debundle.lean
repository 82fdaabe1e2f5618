import Debundle.Main
import Debundle.Proofs.Rename.Capture
import Debundle.Proofs.Rename.Completeness
import Debundle.Proofs.Table.Totality
import Debundle.Proofs.Unpack.Links
import Debundle.Proofs.Script.Renamed
import Debundle.Proofs.Naming.Registry
import Debundle.Proofs.Wrapper.First
import Debundle.Proofs.Script.ChainText
import Debundle.Proofs.Script.DanglingElse
import Debundle.Proofs.Script.StringLiteral
import Debundle.Proofs.Script.LoopHead
import Debundle.Proofs.Disk.Atomicity
import Debundle.Proofs.Naming.Targets
import Debundle.Proofs.Unpack.Bookkeeping
import Debundle.Proofs.Naming.Spelling
import Debundle.Proofs.Rename.Shortcut
import Debundle.Proofs.Tree.Tags
