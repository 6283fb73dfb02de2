import DateTimeText.Formatter.Iso
import DateTimeText.Node.Render
import DateTimeText.Proofs.Formatter.Numbers
import DateTimeText.Proofs.Node.FieldValues
import DateTimeText.Proofs.Node.OptionalSection
import DateTimeText.Proofs.Date.EpochDays
import DateTimeText.Proofs.Node.Rendering
import DateTimeText.Proofs.Formatter.Writing
import DateTimeText.Proofs.Node.Cursor
import DateTimeText.Proofs.Node.OffsetBytes
import DateTimeText.Proofs.Formatter.Positions
import DateTimeText.Proofs.DateTime.EpochSeconds
import DateTimeText.Proofs.Node.InstantText
import DateTimeText.Proofs.Node.IsoParts
import DateTimeText.Proofs.Formatter.Instants
import DateTimeText.Proofs.Builder.Adjacency
import DateTimeText.Proofs.Formatter.Acceptance
import DateTimeText.Proofs.Formatter.Zones
import DateTimeText.Proofs.Node.OffsetText
import DateTimeText.Proofs.Node.SecondFraction
import DateTimeText.Proofs.Node.OffsetGrammar
import DateTimeText.Proofs.Node.IsoText
import DateTimeText.Proofs.Formatter.IsoDates
import DateTimeText.Proofs.Node.Canonical
import DateTimeText.Proofs.Formatter.FixedWidths
import DateTimeText.Proofs.Node.DigitRows
import DateTimeText.Proofs.Chronology.YearRanges
import DateTimeText.Proofs.Formatter.Timestamps
import DateTimeText.Proofs.Formatter.IsoOrder
import DateTimeText.Proofs.Formatter.Translation
import DateTimeText.Proofs.Builder.Atomicity
import DateTimeText.Proofs.Formatter.Names
import DateTimeText.Proofs.Date.Succession
import DateTimeText.Proofs.Node.InstantWriting
import DateTimeText.Proofs.Formatter.InstantShapes
import DateTimeText.Proofs.Formatter.Transliteration
import DateTimeText.Proofs.Node.NumericZero
import DateTimeText.Proofs.Formatter.Offsets
import DateTimeText.Proofs.Formatter.ZoneNormalForms
import DateTimeText.Proofs.Node.ReducedNumeral
import DateTimeText.Proofs.Node.NumberGrammar
import DateTimeText.Proofs.Formatter.Leniency
import DateTimeText.Proofs.Node.FractionBounds
import DateTimeText.Proofs.FieldText.Entries
import DateTimeText.Proofs.Node.LongestMatch
import DateTimeText.Proofs.Node.Padding
import DateTimeText.Proofs.Formatter.ZeroPadding
import DateTimeText.Proofs.DateTime.DerivedFields
import DateTimeText.Proofs.DateTime.TimeLine
import DateTimeText.Proofs.Chronology.LongestId
import DateTimeText.Proofs.Pattern.Quoting
