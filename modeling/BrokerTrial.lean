import BrokerTrial.Host.Readiness
import BrokerTrial.Main
import BrokerTrial.Session.Rehearsal
import BrokerTrial.Proofs.Reaction
import BrokerTrial.Proofs.View
import BrokerTrial.Proofs.Scene
import BrokerTrial.Proofs.Simulation
import BrokerTrial.Proofs.Coupling
import BrokerTrial.Proofs.Turn
import BrokerTrial.Proofs.Refusal
import BrokerTrial.Proofs.History
import BrokerTrial.Proofs.Workflow
import BrokerTrial.Proofs.Progress
import BrokerTrial.Proofs.Chunking
import BrokerTrial.Proofs.Partition
import BrokerTrial.Proofs.Course
import BrokerTrial.Proofs.Finality
import BrokerTrial.Proofs.Cost
import BrokerTrial.Proofs.Writing
import BrokerTrial.Proofs.Resending
import BrokerTrial.Proofs.Skipping
import BrokerTrial.Proofs.Attempt
import BrokerTrial.Proofs.Draining
import BrokerTrial.Proofs.Dump
import BrokerTrial.Proofs.Usage
import BrokerTrial.Proofs.Accounts
import BrokerTrial.Proofs.Reporting
import BrokerTrial.Proofs.Delivery
import BrokerTrial.Proofs.Counting
import BrokerTrial.Proofs.Shutdown
import BrokerTrial.Proofs.Gating
import BrokerTrial.Proofs.Spurious
import BrokerTrial.Proofs.Reassembly
import BrokerTrial.Proofs.Containment
import BrokerTrial.Proofs.Overriding
import BrokerTrial.Proofs.Preparation
import BrokerTrial.Proofs.Opening
import BrokerTrial.Proofs.Reuse
import BrokerTrial.Proofs.Numbering
