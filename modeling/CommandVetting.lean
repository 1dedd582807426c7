import CommandVetting.Main
import CommandVetting.Json.Reader
import CommandVetting.Pattern.Lemmas
import CommandVetting.Proofs.Audit.Lines
import CommandVetting.Proofs.Cli.Records
import CommandVetting.Proofs.Cli.Stdin
import CommandVetting.Proofs.Pattern.Words
import CommandVetting.Proofs.Rule.Pairs
import CommandVetting.Proofs.Cli.Streams
import CommandVetting.Proofs.Cli.GlobalOptions
import CommandVetting.Proofs.Cli.LogFile
import CommandVetting.Proofs.Cli.Sources
import CommandVetting.Proofs.Audit.Alike
import CommandVetting.Proofs.Audit.LookAlikes
import CommandVetting.Proofs.Audit.Spacing
import CommandVetting.Proofs.Rule.WholeWords
import CommandVetting.Proofs.Rule.Spaced
import CommandVetting.Proofs.Rule.OpenEnd
import CommandVetting.Proofs.Audit.Trail
import CommandVetting.Proofs.Cli.Wording
import CommandVetting.Proofs.Audit.Batches
import CommandVetting.Proofs.Cli.LineEnds
import CommandVetting.Proofs.Cli.Filtering
import CommandVetting.Proofs.Cli.Placement
import CommandVetting.Proofs.Audit.Padding
import CommandVetting.Proofs.Pattern.Symbols
