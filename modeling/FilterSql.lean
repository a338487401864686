import FilterSql.Main
import FilterSql.Proofs.Counter
import FilterSql.Proofs.EnvFile
import FilterSql.Proofs.Equality
import FilterSql.Proofs.Folding
import FilterSql.Proofs.Grouping
import FilterSql.Proofs.Layers
import FilterSql.Proofs.Lossless
import FilterSql.Proofs.Lowering
import FilterSql.Proofs.Noninterference
import FilterSql.Proofs.Normal
import FilterSql.Proofs.OperatorObject
import FilterSql.Proofs.Ordering
import FilterSql.Proofs.Padding
import FilterSql.Proofs.Paging
import FilterSql.Proofs.Pattern
import FilterSql.Proofs.Readback
import FilterSql.Proofs.Reload
import FilterSql.Proofs.Reporting
import FilterSql.Proofs.Truth
import FilterSql.Proofs.Validation
import FilterSql.Sample
import FilterSql.Session
