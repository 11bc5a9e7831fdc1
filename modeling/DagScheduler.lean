import DagScheduler.Library.Programs
import DagScheduler.Library.SharedHeap
import DagScheduler.Library.Kahn
import DagScheduler.Library.Plans
import DagScheduler.Library.Paths
import DagScheduler.Library.Monitors
import DagScheduler.Library.Refinements
import DagScheduler.Library.Layers
import DagScheduler.GraphProofs.SortProofs
import DagScheduler.GraphProofs.EdgeProofs
import DagScheduler.GraphProofs.CloneProofs
import DagScheduler.GraphProofs.CycleCheckProofs
import DagScheduler.GraphProofs.EffectProofs
import DagScheduler.GraphProofs.TaskProofs
import DagScheduler.GraphProofs.ComparisonProofs
import DagScheduler.GraphProofs.IntegrityProofs
import DagScheduler.GraphProofs.ProcessProofs
import DagScheduler.GraphProofs.LabelProofs
import DagScheduler.GraphProofs.OutsiderProofs
import DagScheduler.GraphProofs.LifetimeProofs
import DagScheduler.GraphProofs.FormatProofs
import DagScheduler.GraphProofs.CallbackProofs
import DagScheduler.GraphProofs.HandleProofs
import DagScheduler.GraphProofs.LabelRemovalProofs
import DagScheduler.GraphProofs.BuildProofs
import DagScheduler.GraphProofs.ResortProofs
import DagScheduler.GraphProofs.AdditionProofs
import DagScheduler.GraphProofs.StageProofs
import DagScheduler.GraphProofs.ExceptionProofs
import DagScheduler.GraphProofs.LoadingProofs
import DagScheduler.GraphProofs.ReportingProofs
import DagScheduler.GraphProofs.RestablishProofs
import DagScheduler.GraphProofs.AssignmentProofs
import DagScheduler.SchedulingProofs.ReuseProofs
import DagScheduler.SchedulingProofs.OrderProofs
import DagScheduler.SchedulingProofs.DispatchProofs
import DagScheduler.SchedulingProofs.ClientProofs
import DagScheduler.SchedulingProofs.BusyProofs
import DagScheduler.SchedulingProofs.FeedingProofs
import DagScheduler.SchedulingProofs.WakeupProofs
import DagScheduler.ServiceProofs.ListeningProofs
import DagScheduler.GraphProofs.QueryProofs
import DagScheduler.SchedulingProofs.MonitorProofs
import DagScheduler.ServiceProofs.ServerProofs
import DagScheduler.ServiceProofs.AbstractionProofs
import DagScheduler.GraphProofs.AccountProofs
import DagScheduler.GraphProofs.BatchProofs
import DagScheduler.GraphProofs.PipelineProofs
import DagScheduler.SchedulingProofs.ExclusionProofs
import DagScheduler.GraphProofs.RegistryProofs
import DagScheduler.SchedulingProofs.DeliveryProofs
