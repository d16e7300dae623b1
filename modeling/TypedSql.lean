import TypedSql.Dialect.MySql
import TypedSql.Dialect.Tagged
import TypedSql.Json.Request
import TypedSql.Json.Tree
import TypedSql.Main
import TypedSql.Proofs.Agreement
import TypedSql.Proofs.Binding
import TypedSql.Proofs.ByteScan
import TypedSql.Proofs.CommandLine
import TypedSql.Proofs.Demands
import TypedSql.Proofs.Fates
import TypedSql.Proofs.InsertionOrder
import TypedSql.Proofs.KeptFields
import TypedSql.Proofs.LeadingIntegers
import TypedSql.Proofs.NormalForm
import TypedSql.Proofs.Operations
import TypedSql.Proofs.Paging
import TypedSql.Proofs.Polygons
import TypedSql.Proofs.Precedence
import TypedSql.Proofs.QuotedNames
import TypedSql.Proofs.ReadBack
import TypedSql.Proofs.Reading
import TypedSql.Proofs.Restriction
import TypedSql.Proofs.TableNames
import TypedSql.Proofs.SetBody
import TypedSql.Proofs.Target
import TypedSql.Proofs.TreeValues
import TypedSql.Proofs.Windows
import TypedSql.Proofs.Writing
import TypedSql.Statement
