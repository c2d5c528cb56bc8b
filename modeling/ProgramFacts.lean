import ProgramFacts.Facts.Form.Visit
import ProgramFacts.Main
import ProgramFacts.Proofs.Lexemes
import ProgramFacts.Proofs.TermDecoding
import ProgramFacts.Proofs.TermLayout
import ProgramFacts.Proofs.Walks
import ProgramFacts.Proofs.Writable
import ProgramFacts.Proofs.WriteOrder
import ProgramFacts.Proofs.Form.Embedding
import ProgramFacts.Proofs.Form.Frame
import ProgramFacts.Proofs.Form.Simulation
import ProgramFacts.Proofs.Form.MemberSimulation
import ProgramFacts.Proofs.ScopeIsolation
import ProgramFacts.Proofs.Schema
import ProgramFacts.Proofs.SchemaSoundness
import ProgramFacts.Proofs.Tallies
import ProgramFacts.Proofs.Symbols
import ProgramFacts.Proofs.Conservation
import ProgramFacts.Proofs.FactPaths
import ProgramFacts.Proofs.ModeAgreement
import ProgramFacts.Proofs.Scripts
import ProgramFacts.Proofs.SinkWalks
import ProgramFacts.Proofs.Courses
import ProgramFacts.Proofs.GeneratedFiles
import ProgramFacts.Proofs.AbortedRuns
import ProgramFacts.Proofs.Reading.Places
import ProgramFacts.Proofs.Reading.Demands
import ProgramFacts.Proofs.UpperCase
import ProgramFacts.Proofs.Reading.Contracts
import ProgramFacts.Proofs.Reading.Models
import ProgramFacts.Proofs.Reading.Canonical
import ProgramFacts.Proofs.LoadableModels
import ProgramFacts.Proofs.FaultPlaces
import ProgramFacts.Proofs.LoadedWalks
import ProgramFacts.Proofs.Regeneration
import ProgramFacts.Proofs.ModeComposition
import ProgramFacts.Proofs.Confinement
import ProgramFacts.Proofs.Omissions
import ProgramFacts.Proofs.Form.ScopeSimulation
import ProgramFacts.Proofs.PackageIndex
import ProgramFacts.Proofs.Form.ProgramSimulation
import ProgramFacts.Proofs.PackageIndependence
import ProgramFacts.Proofs.ConsoleIndependence
import ProgramFacts.Proofs.BreakingSettings
import ProgramFacts.Proofs.CommandEndings
import ProgramFacts.Proofs.ModuleFacts
import ProgramFacts.Proofs.TypeTerms
import ProgramFacts.Proofs.NumberTexts
import ProgramFacts.Proofs.ValueTerms
import ProgramFacts.Proofs.Placeholders
import ProgramFacts.Proofs.WrittenAtoms
import ProgramFacts.Proofs.Brackets
import ProgramFacts.Proofs.FactOutlines
import ProgramFacts.Proofs.TermLines
import ProgramFacts.Proofs.LineTexts
import ProgramFacts.Proofs.Reading.LongForms
import ProgramFacts.Proofs.BareNames
import ProgramFacts.Proofs.OutputSessions
import ProgramFacts.Proofs.NamespacePaths
import ProgramFacts.Proofs.FlatTexts
import ProgramFacts.Proofs.FlatTerms
import ProgramFacts.Proofs.FlatFacts
import ProgramFacts.Proofs.ShortestDecimals
import ProgramFacts.Proofs.FloatTexts
import ProgramFacts.Proofs.SettingLayers
