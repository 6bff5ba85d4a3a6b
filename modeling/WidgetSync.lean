import WidgetSync.Arbiter.Rehearsal
import WidgetSync.Format.Registry
import WidgetSync.History
import WidgetSync.Main
import WidgetSync.Markup.HandlerCode
import WidgetSync.Proofs.Attributes
import WidgetSync.Proofs.Bursts
import WidgetSync.Proofs.Canonical
import WidgetSync.Proofs.Clearing
import WidgetSync.Proofs.Closings
import WidgetSync.Proofs.Coalescing
import WidgetSync.Proofs.Coercion
import WidgetSync.Proofs.Containment
import WidgetSync.Proofs.Descent
import WidgetSync.Proofs.Dotted
import WidgetSync.Proofs.Drift
import WidgetSync.Proofs.Endings
import WidgetSync.Proofs.Fidelity
import WidgetSync.Proofs.Header
import WidgetSync.Proofs.Independence
import WidgetSync.Proofs.Labels
import WidgetSync.Proofs.Layers
import WidgetSync.Proofs.Levels
import WidgetSync.Proofs.Locality
import WidgetSync.Proofs.Opaque
import WidgetSync.Proofs.Overrides
import WidgetSync.Proofs.Punctual
import WidgetSync.Proofs.Quoting
import WidgetSync.Proofs.Refusal
import WidgetSync.Proofs.Spacing
import WidgetSync.Proofs.Spans
import WidgetSync.Proofs.Standing
import WidgetSync.Proofs.Targets
import WidgetSync.Proofs.Unclaimed
import WidgetSync.Proofs.Undoing
import WidgetSync.Proofs.Zipper
import WidgetSync.Timing.Script
