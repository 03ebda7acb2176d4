import BackupAcks.Main
import BackupAcks.Proofs.Coordinator.EpochFence
import BackupAcks.Proofs.Coordinator.Identifiers
import BackupAcks.Proofs.Coordinator.NoLostWait
import BackupAcks.Proofs.Coordinator.SuccessLaw
import BackupAcks.Proofs.Table.Agreement
import BackupAcks.Proofs.Table.Admission
import BackupAcks.Proofs.Deadline.Desk
import BackupAcks.Proofs.Deadline.Turns
import BackupAcks.Proofs.Coordinator.Deadlines
import BackupAcks.Proofs.Coordinator.Failures
import BackupAcks.Proofs.Coordinator.FailureLaw
import BackupAcks.Proofs.Coordinator.DeadlineCoverage
import BackupAcks.Proofs.Coordinator.LateRegistration
import BackupAcks.Proofs.Table.Conjunction
import BackupAcks.Proofs.Coordinator.LocalFailure
import BackupAcks.Proofs.Coordinator.Redelivery
import BackupAcks.Proofs.Coordinator.Interleaving
import BackupAcks.Proofs.Coordinator.WirePath
import BackupAcks.Proofs.Reply.Spelling
import BackupAcks.Proofs.Coordinator.Shutdown
import BackupAcks.Proofs.Coordinator.Accounts
import BackupAcks.Proofs.Coordinator.Isolation
import BackupAcks.Proofs.Coordinator.OutdatedOffers
import BackupAcks.Proofs.Coordinator.Activation
import BackupAcks.Proofs.Coordinator.Occasions
import BackupAcks.Proofs.Coordinator.Answers
import BackupAcks.Proofs.Simulation.Timeline
import BackupAcks.Proofs.Simulation.Assignment
import BackupAcks.Proofs.Simulation.Rolls
import BackupAcks.Proofs.Simulation.Agenda
import BackupAcks.Proofs.Simulation.Courses
import BackupAcks.Proofs.Simulation.Conservation
import BackupAcks.Proofs.Simulation.Requests
import BackupAcks.Proofs.Simulation.OneAssignment
import BackupAcks.Proofs.Simulation.SharedFate
import BackupAcks.Proofs.Simulation.Owners
import BackupAcks.Proofs.Simulation.IssueLoop
import BackupAcks.Proofs.Simulation.Forwarding
import BackupAcks.Proofs.Text.ByteOrder
import BackupAcks.Proofs.Toml.KeyOrder
import BackupAcks.Proofs.Coordinator.Start
import BackupAcks.Proofs.Write.PairSet
