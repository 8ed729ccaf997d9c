import DrawPile.Store.Operation
import DrawPile.Proofs.Catalog
import DrawPile.Proofs.Name
import DrawPile.Proofs.Reference.Substitution
import DrawPile.Proofs.Audience
import DrawPile.Proofs.Reference.Conservation
import DrawPile.Proofs.Store.Change
import DrawPile.Proofs.Store.Step
import DrawPile.Proofs.Json.RoundTrip
import DrawPile.Proofs.Store.Announcement
import DrawPile.Proofs.Store.Export
import DrawPile.Proofs.Outcome
import DrawPile.Proofs.Reference.Limits
import DrawPile.Proofs.Reference.Clean
import DrawPile.Proofs.Reference.Acyclic
import DrawPile.Proofs.Reference.Settling
import DrawPile.Proofs.Number.Rounding
import DrawPile.Proofs.Odds
import DrawPile.Proofs.Store.Failure
import DrawPile.Proofs.Number.Overflow
import DrawPile.Proofs.Weight
import DrawPile.Proofs.Reference.Agreement
import DrawPile.Proofs.Store.Listening
import DrawPile.Proofs.Audience.History
import DrawPile.Proofs.Audience.Telling
import DrawPile.Proofs.Store.Delivery
import DrawPile.Proofs.Draw
import DrawPile.Proofs.Reference.Grammar
import DrawPile.Proofs.Reference.Course
import DrawPile.Proofs.Reference.Passes
import DrawPile.Proofs.Reference.Endless
import DrawPile.Proofs.Reference.Surrounding
import DrawPile.Proofs.Reference.Edits
import DrawPile.Proofs.Reference.LineFeed
import DrawPile.Proofs.Reference.Diagnostic
import DrawPile.Proofs.Store.Entering
import DrawPile.Proofs.Entry.Reencoding
import DrawPile.Proofs.Repair.Departure
import DrawPile.Proofs.Store.Import
import DrawPile.Proofs.Repair.Recovery
import DrawPile.Proofs.Store.Creation
import DrawPile.Proofs.Store.Renaming
import DrawPile.Proofs.Store.Visibility
import DrawPile.Proofs.Store.Naming
import DrawPile.Proofs.Number.Spacing
import DrawPile.Proofs.Store.Drawing
import DrawPile.Proofs.Number.Numeral
import DrawPile.Proofs.Weight.Language
import DrawPile.Proofs.Name.Clash
import DrawPile.Proofs.Weight.Dice
import DrawPile.Proofs.Catalog.Order
import DrawPile.Proofs.Store.Moving
import DrawPile.Proofs.Store.Reordering
import DrawPile.Proofs.Text
import DrawPile.Proofs.Settings.Numeral
import DrawPile.Proofs.Settings
import DrawPile.Proofs.Store.Assigning
import DrawPile.Proofs.Repair.Order
import DrawPile.Proofs.Store.Search
import DrawPile.Proofs.Number.HalfUp
import DrawPile.Proofs.Weight.Rounding
