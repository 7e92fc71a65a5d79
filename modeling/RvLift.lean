import RvLift.CommandLine.Workspace
import RvLift.Machine.Change
import RvLift.Machine.Trace
import RvLift.Main
import RvLift.Proofs.Block.InOrder
import RvLift.Proofs.Elf.Flattening
import RvLift.Proofs.Exactness
import RvLift.Proofs.Instruction.Disassembly
import RvLift.Proofs.Isa.Agreement
import RvLift.Proofs.Machine.Accesses
import RvLift.Proofs.Machine.Histories
import RvLift.Proofs.Machine.Widening
import RvLift.Proofs.Program.Diagnostics
import RvLift.Proofs.Program.Relocation
import RvLift.Proofs.Program.Reports
import RvLift.Proofs.Target.Landmarks
import RvLift.Proofs.Target.Listings
import RvLift.Proofs.Target.Readability
import RvLift.Proofs.Target.Simulation
import RvLift.Proofs.Text.Addresses
