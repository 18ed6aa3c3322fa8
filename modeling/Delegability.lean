import Delegability.Main
import Delegability.Proofs.History
import Delegability.Proofs.Skeleton
import Delegability.Proofs.Accounting
import Delegability.Proofs.Locality
import Delegability.Proofs.Resolution
import Delegability.Proofs.WrittenOperator
import Delegability.Proofs.Dotted
import Delegability.Proofs.CapabilityNames
import Delegability.Proofs.Gate
import Delegability.Proofs.Unrecorded
import Delegability.Proofs.MatchReason
import Delegability.Proofs.WholeRow
import Delegability.Proofs.Observation
import Delegability.Proofs.Exemption
import Delegability.Proofs.DisplayNames
import Delegability.Proofs.OuterRecord
import Delegability.Proofs.EntityAccess
import Delegability.Proofs.OperandOrder
import Delegability.Proofs.OutsideCall
import Delegability.Proofs.MatchColumn
import Delegability.Proofs.Violations
import Delegability.Proofs.PairedNames
import Delegability.Proofs.Numbering
import Delegability.Proofs.FirstFault
import Delegability.Proofs.Filling
import Delegability.Proofs.NameTexts
import Delegability.Proofs.LogLines
