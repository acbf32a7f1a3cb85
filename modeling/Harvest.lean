import Harvest.Logging
import Harvest.Main
import Harvest.Markup.Charset
import Harvest.Proofs.Acceptance
import Harvest.Proofs.Addition
import Harvest.Proofs.Attribute
import Harvest.Proofs.Concatenation
import Harvest.Proofs.Digits
import Harvest.Proofs.Direct
import Harvest.Proofs.Ending
import Harvest.Proofs.Expression
import Harvest.Proofs.First
import Harvest.Proofs.Grammar
import Harvest.Proofs.Inquiry
import Harvest.Proofs.Macro
import Harvest.Proofs.OneColumn
import Harvest.Proofs.Order
import Harvest.Proofs.PassThrough
import Harvest.Proofs.Pinned
import Harvest.Proofs.Pipeline
import Harvest.Proofs.Plural
import Harvest.Proofs.Precompiled
import Harvest.Proofs.Recursion
import Harvest.Proofs.Reopening
import Harvest.Proofs.Reorder
import Harvest.Proofs.SizeExpression
import Harvest.Proofs.Skeleton
import Harvest.Proofs.Sources
import Harvest.Proofs.Totality
import Harvest.Proofs.Words
import Harvest.Proofs.Writable
import Harvest.Proofs.Zip
