import RegisterLiveness.Failure
import RegisterLiveness.OperandSet
import RegisterLiveness.Bitset
import RegisterLiveness.CappedSet
import RegisterLiveness.CappedSet.Script
import RegisterLiveness.FlowGraph.Basic
import RegisterLiveness.FlowGraph.Validate
import RegisterLiveness.FlowGraph.Order
import RegisterLiveness.FlowGraph.Builder
import RegisterLiveness.FlowGraph.Components
import RegisterLiveness.Analysis.Options
import RegisterLiveness.Analysis.Summary
import RegisterLiveness.Analysis.Schedule
import RegisterLiveness.Analysis.Query
import RegisterLiveness.Render.Dot
import RegisterLiveness.Render.Dump
import RegisterLiveness.Machine.Instr
import RegisterLiveness.Machine.Program
import RegisterLiveness.Machine.Assembler
import RegisterLiveness.Machine.Blocks
import RegisterLiveness.Machine.Emulator
import RegisterLiveness.Text.Unicode
import RegisterLiveness.Text.Bytes
import RegisterLiveness.Text.Quoted
import RegisterLiveness.Text.Table
import RegisterLiveness.Text.Json
import RegisterLiveness.Text.Numeral
import RegisterLiveness.Format.Yaml.Token
import RegisterLiveness.Format.Yaml.Event
import RegisterLiveness.Format.Yaml.Scalar
import RegisterLiveness.Format.Yaml
import RegisterLiveness.Format.Toml
import RegisterLiveness.ProgramFile.Basic
import RegisterLiveness.ProgramFile.Yaml
import RegisterLiveness.ProgramFile.Toml
import RegisterLiveness.Render.Listing
import RegisterLiveness.Cli.Flags
import RegisterLiveness.Cli.Completion
import RegisterLiveness.Cli.Command
import RegisterLiveness.Cli.Candidates
import RegisterLiveness.Cli.Log
import RegisterLiveness.Cli.Workspace
import RegisterLiveness.Cli.Run
import RegisterLiveness.Main
import RegisterLiveness.Format.Toml.Token
import RegisterLiveness.Format.Toml.Scalar
import RegisterLiveness.Proofs.Members
import RegisterLiveness.Proofs.Bitset
import RegisterLiveness.Proofs.Validate
import RegisterLiveness.Proofs.Order
import RegisterLiveness.Proofs.Prepare
import RegisterLiveness.Proofs.Fixpoint
import RegisterLiveness.Proofs.Paths
import RegisterLiveness.Proofs.Builder
import RegisterLiveness.Proofs.Blocks
import RegisterLiveness.Proofs.Tables
import RegisterLiveness.Proofs.Lockstep
import RegisterLiveness.Proofs.Preconditions
import RegisterLiveness.Proofs.Queries
import RegisterLiveness.Proofs.Chaotic
import RegisterLiveness.Proofs.Work
import RegisterLiveness.Proofs.Faults
import RegisterLiveness.Proofs.Refusals
import RegisterLiveness.Proofs.Reach
import RegisterLiveness.Proofs.Steady
import RegisterLiveness.Proofs.Components
import RegisterLiveness.Proofs.Postorder
import RegisterLiveness.Proofs.DepthFirst
import RegisterLiveness.Proofs.Steps
import RegisterLiveness.Proofs.Cutting
import RegisterLiveness.Proofs.Labels
import RegisterLiveness.Proofs.Owner
import RegisterLiveness.Proofs.Searches
import RegisterLiveness.Proofs.Assembly
import RegisterLiveness.Proofs.Universe
import RegisterLiveness.Proofs.Summaries
import RegisterLiveness.Proofs.Contents
