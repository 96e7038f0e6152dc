import Cohort.Console
import Cohort.Main
import Cohort.Proofs.Sql.Scanning
import Cohort.Proofs.Sql.Reprinting
import Cohort.Proofs.Clause.Event
import Cohort.Proofs.Containment
import Cohort.Proofs.Recovery.Drafts
import Cohort.Proofs.Recovery.Extent
import Cohort.Proofs.Recovery.Subquery
import Cohort.Proofs.Clause.Lossy
import Cohort.Proofs.Clause.Selection
import Cohort.Proofs.Recovery.Literals
import Cohort.Proofs.Recovery.Report
import Cohort.Proofs.Recovery.Relayout
import Cohort.Proofs.Recovery.Unchanged
import Cohort.Proofs.Session.Ids
import Cohort.Proofs.Recovery.Leaves
import Cohort.Proofs.Recovery.WellFormed
import Cohort.Proofs.Clause.Neighbours
import Cohort.Proofs.Sql.Accepting
import Cohort.Proofs.Session.Removal
import Cohort.Proofs.Session.History
import Cohort.Proofs.Payload
import Cohort.Proofs.Validation
import Cohort.Proofs.Payload.Kinds
import Cohort.Proofs.Preview
import Cohort.Proofs.Sql.Spacing
import Cohort.Proofs.Session.Addressing
import Cohort.Proofs.Omission
import Cohort.Proofs.Segment
import Cohort.Proofs.Session.Postorder
import Cohort.Proofs.Sql.Height
import Cohort.Proofs.Sql.Depth
import Cohort.Proofs.Sql.Rereading
