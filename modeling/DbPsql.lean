import DbPsql.Bytes
import DbPsql.Defs
import DbPsql.Prepare
import DbPsql.Loop
import DbPsql.Template
import DbPsql.Refine
import DbPsql.Limits
import DbPsql.Splice
import DbPsql.Connect
import DbPsql.Query
import DbPsql.Result
import DbPsql.Create
import DbPsql.Setup
import DbPsql.Threads
import DbPsql.Buffer
