import HexFilter.Main
import HexFilter.Proofs.Output
import HexFilter.Proofs.Flushing
import HexFilter.Proofs.RoundTrip
import HexFilter.Proofs.Interruption
import HexFilter.Proofs.Canonical
import HexFilter.Proofs.Writing
import HexFilter.Proofs.Unread
import HexFilter.Proofs.Restart
import HexFilter.Proofs.Reports
import HexFilter.Proofs.Portions
import HexFilter.Proofs.Effort
