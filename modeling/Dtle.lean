import Dtle.Go.Slice
import Dtle.Sql.Ast
import Dtle.Sql.Merge
import Dtle.Sql.Ddl
import Dtle.Sql.Frame
import Dtle.Sql.Range
import Dtle.Sql.Layout
import Dtle.Sql.Fold
import Dtle.Sql.FoldAll
import Dtle.Sql.Refine.Columns
import Dtle.Sql.Refine.Constraints
import Dtle.Sql.Refine.Table
import Dtle.Sql.Refine.Options
import Dtle.Sql.Refine.Pointers
import Dtle.Sql.Refine.MergeAll
import Dtle.Sql.Refine.Aliasing
import Dtle.Applier.Lifecycle
import Dtle.Applier.Apply
import Dtle.Applier.Incr
import Dtle.Mysql.Inspect
import Dtle.Sql.Dedup
import Dtle.Sql.Join
import Dtle.Mysql.Table
import Dtle.Applier.Grants
import Dtle.Sql.Checker
import Dtle.Sql.Where
import Dtle.Applier.Batch
import Dtle.Api.Schemas
