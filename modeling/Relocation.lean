import Relocation.Main
import Relocation.Proofs.ReadPaths
import Relocation.Proofs.NativePlaces
import Relocation.Proofs.Walking
import Relocation.Proofs.RunningProgram
import Relocation.Proofs.HostSpelling
import Relocation.Proofs.UrlReading
import Relocation.Proofs.Derivations
import Relocation.Proofs.SameTree
import Relocation.Proofs.BoundlessWalks
import Relocation.Proofs.NativeSpelling
import Relocation.Proofs.FollowingLinks
import Relocation.Proofs.PrintedMappings
import Relocation.Proofs.MapTable
import Relocation.Proofs.MisreadMappings
import Relocation.Proofs.TomlStrings
import Relocation.Proofs.TomlTables
import Relocation.Proofs.Utf8Reading
import Relocation.Proofs.ConfigText
import Relocation.Proofs.WhenPlacesExist
import Relocation.Proofs.LinkCounts
import Relocation.Proofs.ExactPlaces
import Relocation.Proofs.PrintedUrls
import Relocation.Proofs.PrintedPaths
import Relocation.Proofs.PrintedPlaces
import Relocation.Proofs.ChainReach
import Relocation.Proofs.LookupFailures
import Relocation.Proofs.LinklessPaths
import Relocation.Proofs.ToldDirectories
import Relocation.Proofs.FileChanges
import Relocation.Proofs.SettledConfig
import Relocation.Proofs.TouchedFiles
import Relocation.Proofs.LogLines
import Relocation.Proofs.LoadingAgain
import Relocation.Proofs.RunOutcome
import Relocation.Proofs.Climbing
import Relocation.Proofs.DirectoryOrigins
import Relocation.Proofs.BelowBase
import Relocation.Proofs.LastSlashes
import Relocation.Proofs.ShownPaths
import Relocation.Proofs.GlobalOptions
import Relocation.Proofs.AlikeRuns
import Relocation.Proofs.OverriddenOrigin
