import MonkeyTokens.FileTree.Insert
import MonkeyTokens.Main
import MonkeyTokens.Proofs.Bracket.Verdict
import MonkeyTokens.Proofs.MaximalMunch
import MonkeyTokens.Proofs.Session.Agreement
import MonkeyTokens.Proofs.Written
import MonkeyTokens.TokenStream
import MonkeyTokens.Proofs.Concatenation
import MonkeyTokens.Proofs.Text.Boundary
import MonkeyTokens.Proofs.Rejoining
import MonkeyTokens.Proofs.Bracket.Pieces
import MonkeyTokens.Proofs.Output.Refusal
import MonkeyTokens.Proofs.Session.Prompts
import MonkeyTokens.Proofs.Session.Reading
import MonkeyTokens.Proofs.Session.Interruption
import MonkeyTokens.Proofs.Session.Settled
import MonkeyTokens.Proofs.Legible
import MonkeyTokens.Proofs.Layout
import MonkeyTokens.Proofs.Bracket.History
import MonkeyTokens.Proofs.Locality
import MonkeyTokens.Proofs.Stream.Ending
import MonkeyTokens.Proofs.Stream.Requests
import MonkeyTokens.Proofs.SafeCuts
import MonkeyTokens.Proofs.Event.Record
import MonkeyTokens.Proofs.Session.Accounts
import MonkeyTokens.Proofs.Event.Shown
import MonkeyTokens.Proofs.CommandLine.Logging
import MonkeyTokens.Proofs.CommandLine.ExitCode
import MonkeyTokens.Proofs.Movement
import MonkeyTokens.Proofs.Spelling
