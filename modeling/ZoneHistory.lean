import ZoneHistory.Main
import ZoneHistory.Workspace
import ZoneHistory.Proofs.AliasIndex
import ZoneHistory.Proofs.Compilation.Closed
import ZoneHistory.Proofs.Compilation.Independent
import ZoneHistory.Proofs.Links.Collisions
import ZoneHistory.Proofs.Links.Distinct
import ZoneHistory.Proofs.Reading.Splitting
import ZoneHistory.Proofs.Reading.Zones
import ZoneHistory.Proofs.StartYear
import ZoneHistory.Proofs.UsableNames
import ZoneHistory.Proofs.ZoneFile.Canonical
import ZoneHistory.Proofs.Reading.Numerals
import ZoneHistory.Proofs.Reading.Refusals
import ZoneHistory.Proofs.Calendar
import ZoneHistory.Proofs.Effects
import ZoneHistory.Proofs.LastYear
import ZoneHistory.Proofs.Unterminated
import ZoneHistory.Proofs.ZoneFile.Fitting
import ZoneHistory.Proofs.Output.Faults
import ZoneHistory.Proofs.Cutover
import ZoneHistory.Proofs.Occurrences
import ZoneHistory.Proofs.EndYear
import ZoneHistory.Proofs.Output.Directory
import ZoneHistory.Proofs.Output.ReadBack
import ZoneHistory.Proofs.AliasIndex.Normal
import ZoneHistory.Proofs.Damage
import ZoneHistory.Proofs.StandardOffset
import ZoneHistory.Proofs.Reading.Breaks
import ZoneHistory.Proofs.Reading.Commented
import ZoneHistory.Proofs.Walk
import ZoneHistory.Proofs.Transcription
import ZoneHistory.Proofs.RuleOrder
import ZoneHistory.Proofs.Calendar.Gregorian
import ZoneHistory.Proofs.Calendar.Dates
import ZoneHistory.Proofs.TimeOfDay.Rendered
import ZoneHistory.Proofs.DateSpec
import ZoneHistory.Proofs.Calendar.Weekdays
import ZoneHistory.Proofs.Wire.Stream
import ZoneHistory.Proofs.Abbreviation
